/-
  ChaosController.Proofs.Vanishing

  What an invocation makes of a record that is deleted while it runs.

  `Oracle.vanishing` deletes the record after a number of exchanges. Nothing changes for an
  invocation until it reads the record or writes a status for the first time after that
  (`Invocation.parts_consult`), and that is the last thing it asks for. If it was going to read,
  it ends well and waits for a change. A status write that finds no record is a failure like any
  other: its error is told, and the controller comes back to an experiment that is gone
  (`vanished_ends`).
-/

import ChaosController.Api.Calls
import ChaosController.Json.Printing
import ChaosController.Proofs.FailStop
import ChaosController.Proofs.Indifference
import ChaosController.Proofs.Revisits

namespace ChaosController

/-! ## Deletion -/

/-- Whether the stored record is read or written. -/
def Request.seeksRecord : Request → Bool
  | get _ _ | update _ _ => true
  | list _ _ | pick _ | delete _ _ | publish _ => false

/-- Every read and every status write of a trace is one of its first `point` exchanges. -/
def Trace.Before (point : Nat) (t : Trace) : Prop :=
  ∀ later x earlier, t = later ++ x :: earlier → x.request.seeksRecord = true →
    earlier.length < point

theorem Trace.Before.nil (point : Nat) : Trace.Before point [] := by
  intro later x earlier ht
  simp at ht

theorem Trace.Before.cons {point : Nat} {t : Trace} {x : Exchange} (ht : t.Before point)
    (hx : x.request.seeksRecord = true → t.length < point) : Trace.Before point (x :: t) := by
  intro later y earlier hsplit hy
  cases later with
  | nil =>
    obtain ⟨rfl, rfl⟩ := List.cons.inj hsplit
    exact hx hy
  | cons z later => exact ht later y earlier (List.cons.inj hsplit).2 hy

/-- The oracle of a cluster from which the record is deleted after some exchanges. From then on it
    is absent to a read, and a status write is refused. -/
def Oracle.vanishing (oracle : Oracle) (point : Nat) (refusal : Error) : Oracle
  | t, .get ns name => if t.length < point then oracle t (.get ns name) else .ok none
  | t, .update base status =>
    if t.length < point then oracle t (.update base status) else .error refusal
  | t, .list ns selector => oracle t (.list ns selector)
  | t, .pick count => oracle t (.pick count)
  | t, .delete ns name => oracle t (.delete ns name)
  | t, .publish event => oracle t (.publish event)

section Deletion

variable {oracle : Oracle} {point : Nat} {refusal : Error} {t : Trace} {r : Request}

/-- The deletion is told to reads and status writes only, and not before it has happened. -/
theorem Oracle.vanishing_eq (h : r.seeksRecord = true → t.length < point) :
    oracle.vanishing point refusal t r = oracle t r := by
  cases r with
  | get => exact if_pos (h rfl)
  | update => exact if_pos (h rfl)
  | list | pick | delete | publish => rfl

/-- How a run in which the record is deleted compares with the one in which it is kept. -/
inductive Oracle.Parts {α : Type} (oracle : Oracle) (point : Nat) (refusal : Error)
    (kept gone : Ending α × Trace) : Prop
  | unnoticed (h : gone = kept) (ht : kept.2.Before point)
  | noticed {r : Request} {earlier : Trace} (later later' : Trace) (hr : r.seeksRecord = true)
      (hpoint : point ≤ earlier.length) (ht : earlier.Before point)
      (hkept : kept.2 = later ++ ⟨r, oracle earlier r⟩ :: earlier)
      (hgone : gone.2 = later' ++ ⟨r, oracle.vanishing point refusal earlier r⟩ :: earlier)

/-- Two runs of an invocation go together until the deletion is noticed. -/
theorem Invocation.parts_consult {α : Type} (i : Invocation α) (ht : t.Before point) :
    oracle.Parts point refusal (i.consult oracle t)
      (i.consult (oracle.vanishing point refusal) t) := by
  -- By induction on the invocation. The traces of both runs are the same as long as nothing that
  -- would tell the deletion comes after it.
  induction i generalizing t with
  | done a => exact .unnoticed rfl ht
  | abort => exact .unnoticed rfl ht
  | ask r resume ih =>
    by_cases hr : r.seeksRecord = true → t.length < point
    · have hreply : oracle.vanishing point refusal t r = oracle t r := Oracle.vanishing_eq hr
      rw [consult_ask hreply]
      exact ih _ (ht.cons hr)
    · -- From here the runs may go anywhere; both have the request in their traces.
      obtain ⟨hr, hpoint⟩ := Classical.not_imp.1 hr
      obtain ⟨later, hlater⟩ := consult_suffix oracle (resume (oracle t r)) (⟨r, oracle t r⟩ :: t)
      obtain ⟨later', hlater'⟩ := consult_suffix (oracle.vanishing point refusal)
        (resume (oracle.vanishing point refusal t r))
        (⟨r, oracle.vanishing point refusal t r⟩ :: t)
      exact .noticed later later' hr (Nat.not_lt.1 hpoint) ht hlater hlater'

end Deletion

/-! ## Replies without a record -/

namespace Api

variable {code : Nat} {body : String}

/-- A refusal for the reason `NotFound` is no error to a read. -/
theorem readGet_of_notFound (hcode : 400 ≤ code ∧ code ≤ 599)
    (h : (ApiError.ofResponse code body).reason = "NotFound") :
    readGet (.answered code body) = .ok none := by
  simp [readGet, Response.accepted, hcode, h, bind, Except.bind]

/-- Every refusal is an error to a status write. -/
theorem readUpdate_of_refusal (hcode : 400 ≤ code ∧ code ≤ 599) (name : String) :
    readUpdate name (.answered code body) =
      .error (.ofStatusWrite name (.api (.ofResponse code body))) := by
  simp [readUpdate, Response.accepted, hcode, bind, Except.bind, Except.mapError]

end Api

/-! ## Endings -/

/-- A run goes along one of the traces of its invocation. -/
theorem Invocation.Reaches.consult {α : Type} {i rest : Invocation α} {t : Trace}
    (h : i.Reaches t rest) (oracle : Oracle) :
    ∃ last, i.Reaches (rest.consult oracle t).2 last := by
  induction rest generalizing t with
  | done a => exact ⟨_, h⟩
  | abort => exact ⟨_, h⟩
  | ask r resume ih => exact ih _ (h.exchange (oracle t r))

namespace Reconcile

/-- How an invocation ends that finds its record gone. A read is its only exchange, and there is
    no error; a status write is its last one, and its error is told unless an attack has failed
    before. -/
inductive Vanished (settings : Settings) (refusal : Error) :
    Trace → Ending (Except Error Revisit) → Prop
  | unread (ns name : String) :
      Vanished settings refusal [⟨.get ns name, .ok none⟩] (.finished (.ok .onChange))
  | refused {e : Error} (base : Experiment) (status : Status) (earlier : Trace) (delay : Duration)
      (hcause : (∀ x ∈ earlier, x.miss? = none) → e = refusal)
      (hdelay : settings.revisitAfter e = .after delay) :
      Vanished settings refusal (⟨.update base status, .error refusal⟩ :: earlier)
        (.finished (.error e))

/-- An error is told exactly if something fails. -/
theorem Accounts.error_iff {name : String} {t : Trace} {ending : Ending (Except Error Revisit)}
    (h : Accounts name t ending) : (∃ e, ending = .finished (.error e)) ↔ ¬ t.Unharmed := by
  cases h with
  | well revisit ht => exact ⟨fun ⟨_, h⟩ => (nomatch h), fun h => absurd ht h⟩
  | aborted ht => exact ⟨fun ⟨_, h⟩ => (nomatch h), fun h => absurd ht h⟩
  | refused ht hx =>
    exact ⟨fun _ h => Exchange.not_succeeds_of_refusal? hx (h _ List.mem_cons_self),
      fun _ => ⟨_, rfl⟩⟩
  | missed record text ht hx =>
    exact ⟨fun _ h => Exchange.not_succeeds_of_miss? hx (h _ (by simp)), fun _ => ⟨_, rfl⟩⟩

section Runs

variable {oracle : Oracle} {settings : Settings} {trigger : Experiment} {now : Instant}
  {gone : Ending (Except Error Revisit) × Trace} {later earlier : Trace} {refusal : Error}

/-- Without a record there is nothing to do. -/
theorem consult_of_absent {ns : String} (hns : trigger.metadata.namespace = some ns)
    (h : oracle [] (.get ns trigger.name) = .ok none) :
    (reconcileAt settings trigger now).run.consult oracle [] =
      (.finished (.ok .onChange), [⟨.get ns trigger.name, .ok none⟩]) := by
  simp only [reconcileAt, hns]
  exact Invocation.consult_ask h

/-- Only an invocation for a trigger with a namespace asks for anything. -/
theorem exists_namespace (hgone : (reconcileAt settings trigger now).run.consult oracle [] = gone)
    (h : gone.2 ≠ []) : ∃ ns, trigger.metadata.namespace = some ns := by
  cases hns : trigger.metadata.namespace with
  | some ns => exact ⟨ns, rfl⟩
  | none =>
    refine absurd ?_ h
    rw [← hgone]
    simp only [reconcileAt, hns]
    rfl

theorem vanished_of_unread {ns name : String}
    (hgone : (reconcileAt settings trigger now).run.consult oracle [] = gone)
    (hreply : ∀ ns name, oracle earlier (.get ns name) = .ok none)
    (ht : gone.2 = later ++ ⟨.get ns name, .ok none⟩ :: earlier) :
    later = [] ∧ Vanished settings refusal gone.2 gone.1 := by
  obtain ⟨last, hreached⟩ := (Invocation.Reaches.start
    (i := (reconcileAt settings trigger now).run)).consult oracle
  rw [hgone] at hreached
  -- A read comes first of all, so the record was gone from the start.
  obtain rfl : earlier = [] := (abides_reconcileAt settings trigger now).asked hreached ht
  obtain ⟨own, hns⟩ := exists_namespace hgone (by simp [ht])
  obtain rfl := (consult_of_absent hns (hreply own trigger.name)).symm.trans hgone
  have hlength := congrArg List.length ht
  exact ⟨List.eq_nil_of_length_eq_zero (by simpa using hlength), .unread own trigger.name⟩

theorem vanished_of_refused {base : Experiment} {status : Status}
    (hgone : (reconcileAt settings trigger now).run.consult oracle [] = gone)
    (ht : gone.2 = later ++ ⟨.update base status, .error refusal⟩ :: earlier) :
    later = [] ∧ Vanished settings refusal gone.2 gone.1 := by
  obtain ⟨ns, hns⟩ := exists_namespace hgone (by simp [ht])
  have h : Accounts trigger.name gone.2 gone.1 :=
    hgone ▸ (accounted_reconcileAt settings now hns).consult oracle
  obtain ⟨rfl, hcause⟩ := h.of_refusal? ht rfl
  -- The write has failed, so there is an error; that it is the one of the write depends on what
  -- has failed before.
  have hharmed : ¬ gone.2.Unharmed := fun hgood =>
    Exchange.not_succeeds_of_refusal? rfl
      (hgood ⟨.update base status, .error refusal⟩ (by simp [ht]))
  obtain ⟨e, he⟩ := h.error_iff.2 hharmed
  obtain ⟨delay, hdelay, -⟩ := settings.exists_revisitAfter e
  rw [ht, List.nil_append, he]
  refine ⟨rfl, .refused base status earlier delay (fun hnone => ?_) hdelay⟩
  have hsame := he.symm.trans (hcause hnone)
  cases hsame
  rfl

/-- The exchange that notices the deletion is the last one. -/
theorem vanished_of_noticed {point : Nat} {r : Request}
    (hgone : (reconcileAt settings trigger now).run.consult (oracle.vanishing point refusal) [] =
      gone) (hr : r.seeksRecord = true) (hpoint : point ≤ earlier.length)
    (ht : gone.2 = later ++ ⟨r, oracle.vanishing point refusal earlier r⟩ :: earlier) :
    later = [] ∧ Vanished settings refusal gone.2 gone.1 := by
  have hlate : ¬ earlier.length < point := Nat.not_lt.2 hpoint
  cases r with
  | get ns name =>
    have hreply (ns name : String) :
        oracle.vanishing point refusal earlier (.get ns name) = .ok none := if_neg hlate
    exact vanished_of_unread hgone hreply (hreply ns name ▸ ht)
  | update base status =>
    have hreply : oracle.vanishing point refusal earlier (.update base status) = .error refusal :=
      if_neg hlate
    exact vanished_of_refused hgone (hreply ▸ ht)
  | list | pick | delete | publish => cases hr

end Runs

end Reconcile

/-! ## The main result -/

/-- What becomes of an invocation whose record is deleted after some exchanges. If it neither reads
    the record nor writes a status from then on, the deletion makes no difference, and no error is
    told unless something else fails. Otherwise it is told the same until it first does either, and
    that is the last thing it asks for. To a read the record is absent, so the invocation ends well
    and waits for a change. A status write fails, and unless an attack has failed before it is the
    error of that write that is told; so there is another visit after a delay. -/
theorem vanished_ends (oracle : Oracle) (settings : Settings) (trigger : Experiment)
    (now : Instant) (point : Nat) (refusal : Error) :
    let kept := (reconcileAt settings trigger now).run.consult oracle []
    let gone := (reconcileAt settings trigger now).run.consult (oracle.vanishing point refusal) []
    (gone.2.Before point → gone = kept ∧
      (trigger.metadata.namespace.isSome → (∀ x ∈ gone.2, x.Succeeds) →
        ∀ e, gone.1 ≠ .finished (.error e))) ∧
    ∀ (later earlier : Trace) (x : Exchange), gone.2 = later ++ x :: earlier →
      x.request.seeksRecord = true → point ≤ earlier.length →
      later = [] ∧ (∃ rest reply, kept.2 = rest ++ ⟨x.request, reply⟩ :: earlier) ∧
      Reconcile.Vanished settings refusal gone.2 gone.1 := by
  intro kept gone
  have hparts : oracle.Parts point refusal kept gone :=
    Invocation.parts_consult _ (Trace.Before.nil point)
  refine ⟨fun hbefore => ?_, fun later earlier x ht hx hpoint => ?_⟩
  · cases hparts with
    | unnoticed h =>
      refine ⟨h, fun hns hgood e he => ?_⟩
      obtain ⟨ns, hns⟩ := Option.isSome_iff_exists.1 hns
      have haccounts : Reconcile.Accounts trigger.name gone.2 gone.1 :=
        (Reconcile.accounted_reconcileAt settings now hns).consult _
      exact haccounts.error_iff.1 ⟨e, he⟩ hgood
    | noticed later later' hr hpoint _ _ hgone =>
      exact absurd (hbefore _ _ _ hgone hr) (Nat.not_lt.2 hpoint)
  · cases hparts with
    | unnoticed h hbefore => exact absurd (hbefore _ _ _ (h ▸ ht) hx) (Nat.not_lt.2 hpoint)
    | @noticed r noticed rest later' hr hpoint' hbefore hkept hgone =>
      obtain ⟨rfl, hended⟩ := Reconcile.vanished_of_noticed rfl hr hpoint' hgone
      -- The exchange is the one that notices the deletion, as all others come before the point.
      rw [hgone] at ht
      cases later with
      | nil =>
        obtain ⟨rfl, rfl⟩ := List.cons.inj ht
        exact ⟨rfl, ⟨rest, _, hkept⟩, hended⟩
      | cons y later =>
        exact absurd (hbefore later x earlier (List.cons.inj ht).2 hx) (Nat.not_lt.2 hpoint)

/-- The document in which the API server sends a refusal. -/
def ApiError.document (e : ApiError) : Json :=
  .obj [("status", .str e.status), ("message", .str e.message), ("reason", .str e.reason),
    ("code", .ofNat e.code)]

/-- An experiment is seen for the first time, and deleted before its first status is written. What
    the API server answers then would say to a read that there is no record; to the status write,
    the only call that does not succeed, it is an error. This is told, and there is another
    visit. -/
theorem vanished_ends_enrolling :
    let e := Experiment.sample .oneShot none none none
    let absent : ApiError :=
      ⟨"Failure", "chaosexperiments.chaos.shanto.dev \"sample\" not found", "NotFound", 404⟩
    let response := Response.answered 404 absent.document.print
    let refusal := Error.cluster (.api absent)
    let gone := (reconcileAt .standard e (.sample 0)).run.consult
      ((Oracle.steady e ⟨"lab", "a"⟩).vanishing 1 refusal) []
    Api.readGet response = .ok none ∧ Api.readUpdate e.name response = .error refusal ∧
      (∀ x ∈ gone.2, x.isWrite = false → x.Succeeds) ∧ gone.1 = .finished (.error refusal) ∧
      Settings.standard.revisitAfter refusal = .after Settings.standard.errorBackoff := by
  have hrun (refusal : Error) :
      let e := Experiment.sample .oneShot none none none
      (reconcileAt .standard e (.sample 0)).run.consult
        ((Oracle.steady e ⟨"lab", "a"⟩).vanishing 1 refusal) [] =
      (.finished (.error refusal), [⟨.update e (Reconcile.nextStatus e .pending .initialized
        "Experiment initialized and pending." (.sample 0)), .error refusal⟩,
        ⟨.get "lab" "sample", .ok (some e)⟩]) := rfl
  intro e absent response refusal gone
  have hread : ApiError.ofResponse 404 absent.document.print = absent := by decide +kernel
  have hgone := hrun refusal
  refine ⟨Api.readGet_of_notFound (by decide) (by rw [hread]), ?_, ?_, congrArg Prod.fst hgone, rfl⟩
  · rw [Api.readUpdate_of_refusal (by decide), hread]
    rfl
  · intro x hx hwrite
    rw [show gone = _ from hgone] at hx
    obtain rfl | rfl : x = _ ∨ x = _ := by simpa using hx
    · cases hwrite
    · exact ⟨rfl, rfl⟩

end ChaosController
