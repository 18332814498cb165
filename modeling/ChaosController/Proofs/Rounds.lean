/-
  ChaosController.Proofs.Rounds

  Invocations that run one after another while all goes well.

  An oracle answers each request from what has been asked and replied before. It is obliging if
  no call fails: reads give the stored record, lists are not empty, picks are in range, and
  every status write is accepted. `Ensures` is the logic of `Invocation.Keeps` for such replies
  alone; its rules have no case for a failure.
-/

import ChaosController.Cluster
import ChaosController.Proofs.Conduct

namespace ChaosController

/-! ## Obliging replies -/

/-- The stored record after the exchanges of a trace, if it was `e` before. -/
def Trace.stored (e : Experiment) (t : Trace) : Experiment := t.base?.getD e

/-- A reply to a request that does not fail while `stored` is the stored record. -/
def Exchange.IsObliging (stored : Experiment) : Exchange → Prop
  | ⟨.get _ _, reply⟩ => reply = .ok (some stored)
  | ⟨.list _ _, reply⟩ => ∃ pods, reply = .ok pods ∧ pods ≠ []
  | ⟨.pick count, index⟩ => 0 < count → index < count
  | ⟨.delete _ _, reply⟩ => ∃ deletion, reply = .ok deletion
  | ⟨.update _ status, reply⟩ => ∃ version, reply = .ok (stored.stamped status version)
  | ⟨.publish _, _⟩ => True

namespace Trace

/-- No call of a trace has failed. -/
def Obliged (e : Experiment) : Trace → Prop
  | [] => True
  | x :: t => x.IsObliging (stored e t) ∧ Obliged e t

@[simp] theorem stored_nil (e : Experiment) : stored e [] = e := rfl

theorem stored_cons (e : Experiment) (x : Exchange) (t : Trace) :
    stored e (x :: t) = x.record?.getD (stored e t) := by
  cases h : x.record? <;> simp [stored, h]

theorem stored_append (e : Experiment) (t history : Trace) :
    stored e (t ++ history) = stored (stored e history) t := by
  induction t with
  | nil => rfl
  | cons x t ih => rw [List.cons_append, stored_cons, stored_cons, ih]

end Trace

/-! ## Oracles -/

/-- Replies, told from what has been asked and replied before. -/
abbrev Oracle := Trace → (r : Request) → r.Reply

/-- Whatever has happened, no call fails. -/
def Oracle.Obliging (oracle : Oracle) (e : Experiment) : Prop :=
  ∀ t r, Exchange.IsObliging (Trace.stored e t) ⟨r, oracle t r⟩

/-- The oracle of a cluster that always has the given pod. -/
def Oracle.steady (e : Experiment) (pod : Pod) : Oracle
  | t, .get _ _ => .ok (some (t.stored e))
  | _, .list _ _ => .ok [pod]
  | _, .pick _ => (0 : Nat)
  | _, .delete _ _ => .ok .deleted
  | t, .update _ status =>
    .ok ((t.stored e).stamped status (nextVersion (t.stored e).version?))
  | _, .publish _ => ()

theorem Oracle.steady_obliging (e : Experiment) (pod : Pod) : (steady e pod).Obliging e := by
  intro t r
  cases r with
  | get => exact rfl
  | list => exact ⟨[pod], rfl, List.cons_ne_nil _ _⟩
  | pick => exact id
  | delete => exact ⟨.deleted, rfl⟩
  | update base status => exact ⟨_, rfl⟩
  | publish => trivial

/-- An oracle after some exchanges. -/
def Oracle.after (oracle : Oracle) (history : Trace) : Oracle := fun t => oracle (t ++ history)

theorem Oracle.Obliging.after {oracle : Oracle} {e : Experiment} (h : oracle.Obliging e)
    (history : Trace) : (oracle.after history).Obliging (Trace.stored e history) := by
  intro t r
  rw [← Trace.stored_append]
  exact h (t ++ history) r

namespace Invocation

variable {α : Type}

/-- Runs an invocation on the replies of an oracle, and records the exchanges. -/
def consult (oracle : Oracle) (i : Invocation α) (t : Trace) : Ending α × Trace :=
  i.run (fun t r => (some (oracle t r), ⟨r, oracle t r⟩ :: t)) t

/-- The run of a request goes on with what the oracle replies. -/
theorem consult_ask {oracle : Oracle} {t : Trace} {r : Request} {resume : r.Reply → Invocation α}
    {reply : r.Reply} (h : oracle t r = reply) :
    (ask r resume).consult oracle t = (resume reply).consult oracle (⟨r, reply⟩ :: t) := by
  subst h
  rfl

/-- What all traces of an invocation keep is kept by its run. -/
theorem Keeps.consult {asks : Trace → Request → Prop} {ends : Trace → Ending α → Prop}
    {i : Invocation α} {t : Trace} (h : i.Keeps asks ends t) (oracle : Oracle) :
    ends (i.consult oracle t).2 (i.consult oracle t).1 := by
  induction i generalizing t with
  | done a => exact h
  | abort => exact h
  | ask r resume ih => exact ih (oracle t r) (h.2 _)

/-- If no call has failed, an invocation ends only as `ends` allows. -/
abbrev Ensures (e : Experiment) (ends : Trace → Ending α → Prop) (i : Invocation α)
    (t : Trace) : Prop :=
  i.Keeps (fun _ _ => True) (fun t ending => t.Obliged e → ends t ending) t

variable {e : Experiment} {ends : Trace → Ending α → Prop} {i : Invocation α} {t : Trace}

/-- Nothing is to be shown after a call that has failed. -/
theorem ensures_of_not_obliged (h : ¬ t.Obliged e) : i.Ensures e ends t := by
  induction i generalizing t with
  | done a => exact fun ht => absurd ht h
  | abort => exact fun ht => absurd ht h
  | ask r resume ih => exact ⟨trivial, fun reply => ih reply fun ht => h ht.2⟩

/-- With an obliging oracle an invocation ends as it has been ensured to. -/
theorem Ensures.consult {oracle : Oracle} (ho : oracle.Obliging e) (h : i.Ensures e ends t)
    (ht : t.Obliged e) : ends (i.consult oracle t).2 (i.consult oracle t).1 := by
  induction i generalizing t with
  | done a => exact h ht
  | abort => exact h ht
  | ask r resume ih => exact ih (oracle t r) (h.2 _) ⟨ho t r, ht⟩

end Invocation

/-! ## Rules for the steps of the controller -/

section Rules

open Invocation

variable {α : Type} {e : Experiment} {t : Trace}

/-- An attack lists the pods, picks one of them and deletes it. -/
theorem Attack.ensures_execute_bind {attack : Attack} {target : Target}
    {f : Except AttackFailure AttackOutcome → Invocation α} {ends : Trace → Ending α → Prop}
    (h : ∀ pods index pod deletion, (f (.ok (.killed pod))).Ensures e ends
      (⟨.delete pod.namespace pod.name, .ok deletion⟩ :: ⟨.pick pods.length, index⟩ ::
        ⟨.list target.namespace target.selector, .ok pods⟩ :: t)) :
    (attack.execute target >>= f).Ensures e ends t := by
  apply Attack.keeps_execute_bind trivial
  -- An error and an empty list are not obliging.
  · exact fun cause => ensures_of_not_obliged fun ⟨⟨pods, hpods, _⟩, _⟩ => nomatch hpods
  · exact ensures_of_not_obliged fun ⟨⟨pods, hpods, hne⟩, _⟩ => hne (Except.ok.inj hpods).symm
  · intro pods hne
    refine ⟨trivial, fun index => ⟨fun hnone => ?_, fun pod _ => ⟨trivial, fun cause => ?_,
      fun deletion => h pods index pod deletion⟩⟩⟩
    · refine ensures_of_not_obliged fun ⟨hindex, _⟩ => ?_
      have hlt := hindex (List.length_pos_iff.2 hne)
      exact absurd (List.getElem?_eq_none_iff.1 hnone) (Nat.not_le.2 hlt)
    · exact ensures_of_not_obliged fun ⟨⟨deletion, hdeletion⟩, _⟩ => nomatch hdeletion

namespace Reconcile

variable {ends : Trace → Ending (Except Error α) → Prop}

/-- A status write is accepted for the stored record. -/
theorem ensures_write_bind {base : Experiment} {status : Status} {f : Experiment → Attempt α}
    (h : ∀ version, (f ((t.stored e).stamped status version)).run.Ensures e ends
      (⟨.update base status, .ok ((t.stored e).stamped status version)⟩ :: t)) :
    (write base status >>= f).run.Ensures e ends t := by
  -- Whoever accepts a write gives back the stored record with the new status.
  refine keeps_write_bind.2 ⟨trivial, fun error ht => ?_, fun updated => ?_⟩
  · obtain ⟨version, hversion⟩ := ht.1
    cases hversion
  · by_cases hx : ∃ version, updated = (t.stored e).stamped status version
    · obtain ⟨version, rfl⟩ := hx
      exact h version
    · exact ensures_of_not_obliged fun ⟨⟨version, hversion⟩, _⟩ =>
        hx ⟨version, Except.ok.inj hversion⟩

end Reconcile

end Rules

/-! ## Rounds -/

/-- An occasion to look at an experiment. -/
structure Delivery where
  trigger : Experiment
  now : Instant

/-- What is assumed of deliveries: the trigger has a namespace, and the time lies in no leap
    second. -/
def Delivery.IsPlain (delivery : Delivery) : Prop :=
  delivery.trigger.metadata.namespace.isSome ∧ delivery.now.time.isLeap = false

instance (delivery : Delivery) : Decidable delivery.IsPlain :=
  inferInstanceAs (Decidable (_ ∧ _))

/-- What comes of a delivery. -/
structure Round where
  /-- The stored record before the visit. -/
  before : Experiment
  /-- The stored record after the visit. -/
  after : Experiment
  /-- What has been asked and replied, the latest first. -/
  trace : Trace
  ending : Ending (Except Error Revisit)

namespace Oracle

variable (oracle : Oracle) (settings : Settings) (e : Experiment)

/-- What comes of a delivery, when `e` was stored before the exchanges of `history`. -/
def round (history : Trace) (d : Delivery) : Round :=
  let run := (reconcileAt settings d.trigger d.now).run.consult (oracle.after history) []
  ⟨history.stored e, run.2.stored (history.stored e), run.2, run.1⟩

/-- What comes of deliveries that are taken one after another. -/
def rounds : (history : Trace) → List Delivery → List Round
  | _, [] => []
  | history, d :: later =>
    let round := oracle.round settings e history d
    round :: rounds (round.trace ++ history) later

variable {oracle settings e} {history : Trace} {d : Delivery}

/-- The next round begins with the record that a round leaves behind. -/
theorem stored_round : Trace.stored e ((oracle.round settings e history d).trace ++ history) =
    (oracle.round settings e history d).after := Trace.stored_append ..

/-- With an obliging oracle a round reads the stored record and does what the step of the record
    ensures. -/
theorem Obliging.round (ho : oracle.Obliging e) (settings : Settings) (history : Trace)
    {ns : String} (hns : d.trigger.metadata.namespace = some ns)
    (ends : Trace → Ending (Except Error Revisit) → Prop)
    (h : (Reconcile.step ⟨settings, d.trigger.name, d.now⟩ (history.stored e)).run.Ensures
      (history.stored e) ends [⟨.get ns d.trigger.name, .ok (some (history.stored e))⟩]) :
    ends (oracle.round settings e history d).trace
      (oracle.round settings e history d).ending := by
  refine Invocation.Ensures.consult (ho.after history) ?_ trivial
  simp only [reconcileAt, hns]
  refine ⟨trivial, fun reply => ?_⟩
  by_cases hx : reply = .ok (some (history.stored e))
  · rw [hx]
    exact h
  · exact Invocation.ensures_of_not_obliged fun ht => hx ht.1

end Oracle

end ChaosController
