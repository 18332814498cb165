/-
  ChaosController.Proofs.Targeting

  Which pods an invocation may list and delete.

  Pods are listed only for a record that has been read and whose spec passes all checks, with
  the words of that spec, and a pod is deleted only if it has been listed. All that is assumed
  is that a status write gives back the spec it was made for: the attack goes by the record of
  the last write, not by the one that was checked. `OnTarget` says this of a trace; the main
  result is `reconcileAt_onTarget`.
-/

import ChaosController.Proofs.Overlap

namespace ChaosController

/-! ## Specs that may be attacked -/

/-- A selector that asks for a label is not empty. -/
theorem Labels.selector_ne_empty {labels : Labels} (h : labels.isEmpty = false) :
    labels.selector ≠ "" := by
  intro hempty
  have hnil : labels.selector.toList = [] := by rw [hempty]; rfl
  obtain ⟨entries, sorted⟩ := labels
  cases entries with
  | nil => cases h
  | cons e rest =>
    -- Already the first label is written with an equality sign.
    rw [selector, String.toList_intercalate] at hnil
    cases rest <;> simp [List.intercalate] at hnil

/-- Pods of the namespace `ns` may be listed with a selector: the spec passes all checks, its
    attack is known, and the words are those of its target. -/
structure Spec.Allows (s : Spec) (ns selector : String) : Prop where
  attack : s.attack = .podKill
  namespace_visible : trim s.target.namespace.toList ≠ []
  labels_ne : s.target.labels.entries ≠ []
  duration : s.duration = none ∨
    ∃ text d, s.duration = some text ∧ Duration.ofChars (trim text.toList) = .ok d ∧ 0 < d.nanos
  namespace_eq : ns = s.target.namespace
  selector_eq : selector = s.target.labels.selector
  selector_ne : selector ≠ ""

/-- A valid spec with a known attack allows its own target. -/
theorem Spec.allows_target {s : Spec} {duration : Option Duration} {known : Attack}
    (hv : s.verdict = .valid duration) (hk : s.attack.attack? = some known) :
    s.Allows s.target.namespace s.target.selector := by
  obtain ⟨hns, hlabels, hduration⟩ := of_verdict_eq_valid hv
  refine ⟨?_, hns, ?_, ?_, rfl, rfl, Labels.selector_ne_empty hlabels⟩
  · match h : s.attack, hk with
    | .podKill, _ => rfl
  · intro hnil
    simp [Labels.isEmpty, hnil] at hlabels
  · obtain ⟨hnone, -⟩ | ⟨text, d, htext, -, hread, hpos⟩ := of_checkDuration_eq_valid hduration
    · exact .inl hnone
    · exact .inr ⟨text, d, htext, hread, hpos⟩

/-! ## Traces -/

/-- An accepted status write gives back a record with the spec of the one it was made for. -/
def Exchange.KeepsSpec : Exchange → Prop
  | ⟨.update base _, .ok updated⟩ => updated.spec = base.spec
  | _ => True

/-- Whether the pods of a namespace were asked for. -/
def Exchange.isListing : Exchange → Bool
  | ⟨.list _ _, _⟩ => true
  | ⟨.get _ _, _⟩ | ⟨.pick _, _⟩ | ⟨.delete _ _, _⟩ | ⟨.update _ _, _⟩ | ⟨.publish _, _⟩ => false

theorem Exchange.IsFaithful.keepsSpec {x : Exchange} (h : x.IsFaithful) : x.KeepsSpec := by
  obtain ⟨r, reply⟩ := x
  cases r with
  | get | list | pick | delete | publish => trivial
  | update base status =>
    match reply, h with
    | .error _, _ => trivial
    | .ok _, ⟨version, hupdated⟩ => exact hupdated ▸ Experiment.spec_stamped base status version

namespace Trace

/-- All accepted status writes of a trace leave the spec as it is. -/
def KeepsSpec (t : Trace) : Prop := ∀ x ∈ t, x.KeepsSpec

theorem KeepsSpec.tail {x : Exchange} {t : Trace} (h : KeepsSpec (x :: t)) : KeepsSpec t :=
  fun y hy => h y (List.mem_cons_of_mem x hy)

/-- The number of times that pods were asked for. -/
def lists (t : Trace) : Nat := t.countP Exchange.isListing

@[simp] theorem lists_cons (x : Exchange) (t : Trace) :
    lists (x :: t) = lists t + if x.isListing then 1 else 0 := List.countP_cons

/-- What has been done to pods: they are listed at most once, with the words of the spec that
    has been read, and at most one of the listed pods is deleted. -/
structure OnTarget (t : Trace) : Prop where
  lists_le : t.lists ≤ 1
  deletions_le : t.deletions ≤ 1
  listed : ∀ (later earlier : Trace) ns selector reply,
    t = later ++ ⟨.list ns selector, reply⟩ :: earlier →
    ∃ read, earlier.read? = some read ∧ read.spec.Allows ns selector
  deleted : ∀ (later earlier : Trace) ns name reply,
    t = later ++ ⟨.delete ns name, reply⟩ :: earlier →
    ∃ ns' selector pods, ⟨.list ns' selector, .ok pods⟩ ∈ earlier ∧ ⟨ns, name⟩ ∈ pods

/-- What is asked for only where it has not been asked for before is asked for once. -/
theorem countP_le_one {p : Exchange → Bool} {t : Trace}
    (h : ∀ later earlier x, t = later ++ x :: earlier → p x → earlier.countP p = 0) :
    t.countP p ≤ 1 := by
  induction t with
  | nil => exact Nat.zero_le 1
  | cons x t ih =>
    rw [List.countP_cons]
    by_cases hx : p x
    · have hnone := h [] t x rfl hx
      simp [hnone, hx]
    · have hearlier := ih fun later earlier y ht => h (x :: later) earlier y (by rw [ht]; rfl)
      simpa [hx] using hearlier

end Trace

/-! ## Requests -/

namespace Reconcile

/-- The requests that may follow a trace, as far as pods are concerned. -/
def Aims (t : Trace) : Request → Prop
  | .list ns selector =>
    t.lists = 0 ∧ (t.KeepsSpec → ∃ read, t.read? = some read ∧ read.spec.Allows ns selector)
  | .delete ns name =>
    t.deletions = 0 ∧
      ∃ ns' selector pods, ⟨.list ns' selector, .ok pods⟩ ∈ t ∧ ⟨ns, name⟩ ∈ pods
  | .get _ _ | .pick _ | .update _ _ | .publish _ => True

/-- Whatever an invocation asks for after a trace, it leaves all but its target alone. -/
abbrev Aimed {α : Type} (i : Invocation α) (t : Trace) : Prop :=
  i.Keeps Aims (fun _ _ => True) t

/-- An invocation has read `read`, goes by `base`, and has not turned to any pod yet. -/
structure Poised (t : Trace) (read base : Experiment) : Prop where
  read_eq : t.read? = some read
  unlisted : t.lists = 0
  undeleted : t.deletions = 0
  spec_eq : t.KeepsSpec → base.spec = read.spec

section Steps

variable {c : Context} {t : Trace} {read base : Experiment}

namespace Poised

theorem publish (h : Poised t read base) (event : Event) :
    Poised (⟨.publish event, ()⟩ :: t) read base where
  read_eq := by simp [Exchange.fetched?, h.read_eq]
  unlisted := by simp [Exchange.isListing, h.unlisted]
  undeleted := by simp [Exchange.isDeletion, Exchange.deletion?, h.undeleted]
  spec_eq := fun ht => h.spec_eq ht.tail

/-- The record that a write gives back has the spec that was checked. -/
theorem updated (h : Poised t read base) (status : Status) (e : Experiment) :
    Poised (⟨.update base status, .ok e⟩ :: t) read e where
  read_eq := by simp [Exchange.fetched?, h.read_eq]
  unlisted := by simp [Exchange.isListing, h.unlisted]
  undeleted := by simp [Exchange.isDeletion, Exchange.deletion?, h.undeleted]
  spec_eq := fun ht => (ht _ List.mem_cons_self).trans (h.spec_eq ht.tail)

end Poised

/-- While a failure is recorded no pod is asked for. -/
theorem aimed_fail_bind {α : Type} {reason : Reason} {activity : Activity}
    {message note : String} {f : Except Error Experiment → Invocation α}
    (hf : ∀ r t, Aimed (f r) t) :
    Aimed ((fail c base reason activity message note).run >>= f) t :=
  keeps_fail_bind trivial (fun _ _ => trivial) hf

theorem aimed_attackFailed (known : Attack) (failure : AttackFailure) :
    Aimed (attackFailed c base known failure).run t := by
  cases failure <;> exact aimed_fail_bind fun _ _ => trivial

theorem aimed_noTargets : Aimed (noTargets c base).run t :=
  aimed_fail_bind fun r _ => by cases r <;> trivial

theorem aimed_killed (known : Attack) (duration : Option Duration) (pod : Pod) :
    Aimed (killed c base known duration pod).run t := by
  unfold killed
  cases delayAfterAttack base.spec.mode duration c.settings.recurringInterval with
  | some delay =>
    simp only [Aimed, keeps_write_bind, keeps_publish_bind]
    exact ⟨trivial, fun _ => trivial, fun _ => ⟨trivial, trivial⟩⟩
  | none =>
    simp only [Aimed, publishCompleted, keeps_write_bind, keeps_publish_bind]
    exact ⟨trivial, fun _ => trivial, fun _ => ⟨trivial, trivial, trivial⟩⟩

/-- An attack lists the pods of a target that has been checked and deletes one of them. -/
theorem aimed_attack (known : Attack) (duration : Option Duration) (h : Poised t read base)
    (ha : read.spec.Allows read.spec.target.namespace read.spec.target.selector) :
    Aimed (attack c base known duration).run t := by
  unfold attack
  rw [Aimed, ExceptT.run_bind_lift]
  apply Attack.keeps_execute_bind
  -- The words are those of the record that was written last, which has the spec that was read.
  · exact ⟨h.unlisted, fun ht => ⟨read, h.read_eq, (h.spec_eq ht).symm ▸ ha⟩⟩
  · exact fun cause => aimed_attackFailed known _
  · exact aimed_noTargets
  · intro pods _
    refine ⟨trivial, fun index => ⟨fun _ => aimed_attackFailed known _, fun pod hpod => ?_⟩⟩
    refine ⟨⟨?_, base.spec.target.namespace, base.spec.target.selector, pods, ?_,
        List.mem_of_getElem? hpod⟩,
      fun cause => aimed_attackFailed known _, fun deletion => aimed_killed known duration pod⟩
    · simp [Exchange.isDeletion, Exchange.deletion?, h.undeleted]
    · simp

theorem aimed_retrigger_attack (known : Attack) (duration : Option Duration)
    (h : Poised t read base)
    (ha : read.spec.Allows read.spec.target.namespace read.spec.target.selector) :
    Aimed (retrigger c base >>= fun updated => attack c updated known duration).run t := by
  simp only [Aimed, retrigger, bind_assoc, pure_bind, keeps_write_bind, keeps_publish_bind]
  refine ⟨trivial, fun _ => trivial, fun updated => ⟨trivial, ?_⟩⟩
  exact aimed_attack known duration ((h.updated _ updated).publish _) ha

theorem aimed_act (decision : Decision) (known : Attack) (duration : Option Duration)
    (h : Poised t read base)
    (ha : read.spec.Allows read.spec.target.namespace read.spec.target.selector) :
    Aimed (act c base decision known duration).run t := by
  unfold act
  split
  next =>
    simp only [Aimed, complete, publishCompleted, bind_assoc, pure_bind, keeps_write_bind,
      keeps_publish_bind]
    refine ⟨trivial, fun _ => trivial, fun updated => ⟨trivial, ?_⟩⟩
    split
    next => trivial
    next => exact aimed_retrigger_attack known duration ((h.updated _ updated).publish _) ha
  next => exact aimed_retrigger_attack known duration h ha
  next => exact aimed_attack known duration h ha

/-- Nothing comes before the checks but what is written about the record itself. -/
theorem aimed_step (h : Poised t read read) : Aimed (step c read).run t := by
  unfold step
  split
  next => trivial
  next =>
    split
    next =>
      simp only [Aimed, enroll, bind_assoc, pure_bind, keeps_write_bind, keeps_publish_bind]
      exact ⟨trivial, fun _ => trivial, fun _ => ⟨trivial, trivial⟩⟩
    next => trivial
    next => trivial
    next =>
      unfold checkAndAct
      split
      next hv hk => exact aimed_act _ _ _ h (Spec.allows_target hv hk)
      next => exact aimed_fail_bind fun r _ => by cases r <;> trivial
      next => exact aimed_fail_bind fun r _ => by cases r <;> trivial
      next => trivial

end Steps

theorem aimed_reconcileAt (settings : Settings) (trigger : Experiment) (now : Instant) :
    Aimed (reconcileAt settings trigger now).run [] := by
  unfold reconcileAt
  split
  next => trivial
  next ns _ =>
    refine ⟨trivial, fun reply => ?_⟩
    match reply with
    | .error e => trivial
    | .ok none => trivial
    | .ok (some read) =>
      refine aimed_step ⟨?_, ?_, ?_, fun _ => rfl⟩
      · simp [Exchange.fetched?]
      · simp [Trace.lists, Exchange.isListing]
      · simp [Exchange.isDeletion, Exchange.deletion?]

/-- Whatever an invocation has been answered, it has left all but its target alone. -/
theorem onTarget_of_reaches {settings : Settings} {trigger : Experiment} {now : Instant}
    {t : Trace} {rest : Invocation (Except Error Revisit)}
    (h : (reconcileAt settings trigger now).run.Reaches t rest) (hspec : t.KeepsSpec) :
    t.OnTarget := by
  have hasked {later earlier : Trace} {x : Exchange} (ht : t = later ++ x :: earlier) :
      Aims earlier x.request := (aimed_reconcileAt settings trigger now).asked h ht
  constructor
  case lists_le =>
    -- Pods are asked for only where they have not been asked for yet.
    refine Trace.countP_le_one fun later earlier x ht hx => ?_
    obtain ⟨r, reply⟩ := x
    cases r with
    | list ns selector => exact (hasked ht).1
    | get | pick | delete | update | publish => cases hx
  case deletions_le =>
    refine Trace.countP_le_one fun later earlier x ht hx => ?_
    obtain ⟨r, reply⟩ := x
    cases r with
    | delete ns name => exact (hasked ht).1
    | get | list | pick | update | publish => cases hx
  case listed =>
    intro later earlier ns selector reply ht
    exact (hasked ht).2 fun x hx => hspec x (by simp [ht, hx])
  case deleted =>
    intro later earlier ns name reply ht
    exact (hasked ht).2

end Reconcile

/-! ## The main result -/

/-- No invocation turns to pods that are not its target, whatever its calls are answered with,
    as long as status writes leave the spec as it is: it lists pods at most once, for a spec that
    passes all checks and with the words of that spec, the selector never empty, and it deletes
    at most one pod, which it has listed. So it is in every run of invocations that overlap, in
    which no version is used twice. -/
theorem reconcileAt_onTarget :
    (∀ (settings : Settings) (trigger : Experiment) (now : Instant) (t : Trace)
      (rest : Invocation (Except Error Revisit)),
      (reconcileAt settings trigger now).run.Reaches t rest → t.KeepsSpec → t.OnTarget) ∧
    ∀ (env : Environment) (e : Experiment) (w : World), env.NeverReuses e →
      World.Reachable env e w → ∀ v ∈ w.visits, v.trace.OnTarget := by
  refine ⟨fun settings trigger now t rest => Reconcile.onTarget_of_reaches,
    fun env e w hfresh hw v hv => ?_⟩
  exact Reconcile.onTarget_of_reaches v.reaches fun x hx =>
    ((hw.sound hfresh).faithful v hv x hx).keepsSpec

/-- A recurring experiment whose run is over: the pods are listed and one is deleted after two
    status writes, so the attack goes by another record than the one that was checked. -/
theorem reconcileAt_onTarget_rewritten :
    ∃ w v, World.Reachable (.fresh fun _ _ => False)
        (.sample .recurring (some "5m") (some .pending) (some (.sample 0))) w ∧
      v ∈ w.visits ∧ v.trace.writes = 2 ∧ v.trace.lists = 1 ∧ v.trace.deletions = 1 ∧
      v.trace.KeepsSpec ∧ v.trace.OnTarget ∧ ∀ u ∈ w.visits, u.trace.OnTarget := by
  have hact : Reconcile.step ⟨.standard, "sample", .sample 5⟩
      (.sample .recurring (some "5m") (some .pending) (some (.sample 0))) = _ :=
    Reconcile.step_of_acts (d := .complete)
      (show Spec.verdict _ = .valid (some ⟨300 * nanosPerSecond, by decide⟩) by decide)
      (show AttackKind.attack? _ = some .podKill from rfl)
      (by decide) rfl
  have h : World.Reachable (.fresh fun _ _ => False)
    (.sample .recurring (some "5m") (some .pending) (some (.sample 0))) _ := .initial
  have h := h.step (.launch .standard (.sample .recurring none none none) (.sample 5))
  have h := h.answer [] (.get "lab" "sample") _ rfl (Store.answers_get_current ..)
  have h := h.answer [] (.update _ _) _
    ((Visit.rest_answered_get rfl rfl).trans ((congrArg ExceptT.run hact).trans rfl))
    (Store.answers_accepted "2" (by simp) rfl)
  have h := h.answer [] (.publish _) () rfl rfl
  have h := h.answer [] (.update _ _) _ rfl (Store.answers_accepted "3" (by simp) rfl)
  have h := h.answer [] (.publish _) () rfl rfl
  have h := h.answer [] (.list "lab" _) (.ok [⟨"lab", "a"⟩]) rfl rfl
  have h := h.answer [] (.pick 1) (0 : Nat) rfl rfl
  have h := h.answer [] (.delete "lab" "a") (.ok .deleted) rfl rfl
  have hspec : Trace.KeepsSpec _ := fun x hx =>
    ((h.sound (Environment.fresh_neverReuses _ _)).faithful _ List.mem_cons_self x hx).keepsSpec
  exact ⟨_, _, h, List.mem_cons_self, rfl, rfl, rfl, hspec,
    reconcileAt_onTarget.1 _ _ _ _ _ (Visit.reaches _) hspec,
    reconcileAt_onTarget.2 _ _ _ (Environment.fresh_neverReuses _ _) h⟩

end ChaosController
