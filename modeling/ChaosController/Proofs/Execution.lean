/-
  ChaosController.Proofs.Execution

  What one attack asks for, how it ends, and which pods it leaves.

  An attack has five courses (`Attack.Course`): the pods cannot be listed, there are none, the
  pick is no position in the list, or the picked pod is deleted, with or without success. What is
  asked for and how the attack ends can be told from each other (`execute_course`). Which pods are
  left depends on the cluster. All that is asked of it is that it lists its own pods and deletes
  by namespace and name (`ExactDeletions`): a session does, and so does the stand-in that the
  controller is tested with, unless a name is used in two namespaces.
-/

import ChaosController.Proofs.Deadline
import ChaosController.Proofs.Rounds

namespace ChaosController

/-! ## Exchanges about pods -/

namespace Exchange

/-- The namespace and the selector that pods were listed with, and what was listed. -/
def listing? : Exchange → Option ((String × String) × Except Error (List Pod))
  | ⟨.list ns selector, reply⟩ => some ((ns, selector), reply)
  | ⟨.get _ _, _⟩ | ⟨.pick _, _⟩ | ⟨.delete _ _, _⟩ | ⟨.update _ _, _⟩ | ⟨.publish _, _⟩ => none

/-- The number of pods that one was picked from, and the pick. -/
def pick? : Exchange → Option (Nat × Nat)
  | ⟨.pick count, index⟩ => some (count, index)
  | ⟨.get _ _, _⟩ | ⟨.list _ _, _⟩ | ⟨.delete _ _, _⟩ | ⟨.update _ _, _⟩ | ⟨.publish _, _⟩ => none

/-- The pod whose deletion was asked for, and the answer. -/
def removal? : Exchange → Option (Pod × Except Error Deletion)
  | ⟨.delete ns name, reply⟩ => some (⟨ns, name⟩, reply)
  | ⟨.get _ _, _⟩ | ⟨.list _ _, _⟩ | ⟨.pick _, _⟩ | ⟨.update _ _, _⟩ | ⟨.publish _, _⟩ => none

end Exchange

namespace Trace

/-- The lists of pods that were asked for, the latest first. -/
def listings (t : Trace) : List ((String × String) × Except Error (List Pod)) :=
  t.filterMap Exchange.listing?

/-- The picks, the latest first. -/
def picks (t : Trace) : List (Nat × Nat) := t.filterMap Exchange.pick?

/-- The deletions that were asked for, the latest first. -/
def removals (t : Trace) : List (Pod × Except Error Deletion) := t.filterMap Exchange.removal?

end Trace

/-! ## Courses of an attack -/

namespace Attack

/-- How an attack ends once the deletion of a pod has been answered. -/
def outcomeOf (pod : Pod) : Except Error Deletion → Except AttackFailure AttackOutcome
  | .error cause => .error (.unapplied pod cause)
  | .ok _ => .ok (.killed pod)

/-- The exchanges of an attack on a target, the latest first, and how it ends. -/
inductive Course (target : Target) : Trace → Except AttackFailure AttackOutcome → Prop
  | unlisted (cause : Error) :
      Course target [⟨.list target.namespace target.selector, .error cause⟩]
        (.error (.unresolved cause))
  | deserted :
      Course target [⟨.list target.namespace target.selector, .ok []⟩] (.ok .noTargets)
  | missed (pods : List Pod) (index : Nat) (hne : pods ≠ []) (hout : pods[index]? = none) :
      Course target [⟨.pick pods.length, index⟩,
          ⟨.list target.namespace target.selector, .ok pods⟩]
        (.error (.unresolved (pickError index pods.length)))
  | struck (pods : List Pod) (index : Nat) (pod : Pod) (answer : Except Error Deletion)
      (hin : pods[index]? = some pod) :
      Course target [⟨.delete pod.namespace pod.name, answer⟩, ⟨.pick pods.length, index⟩,
          ⟨.list target.namespace target.selector, .ok pods⟩]
        (outcomeOf pod answer)

/-- What the exchanges of an attack and its outcome tell of each other, when the pods `listed`
    were listed, the position `index` was picked, and a deletion was answered with `answer`. -/
structure Accounted (target : Target) (t : Trace) (outcome : Except AttackFailure AttackOutcome)
    (listed : Except Error (List Pod)) (index : Nat) (answer : Except Error Deletion) : Prop where
  /-- Pods are listed once, with the words of the target. -/
  listings : t.listings = [((target.namespace, target.selector), listed)]
  picked : ∀ pods, listed = .ok pods → pods ≠ [] → t.picks = [(pods.length, index)]
  unpicked : (∀ pods, listed = .ok pods → pods = []) → t.picks = []
  /-- A deletion is asked for if there is a pod at the picked position, and of that pod. -/
  removed : ∀ pods pod, listed = .ok pods → pods[index]? = some pod →
    t.removals = [(pod, answer)]
  unremoved : (∀ pods, listed = .ok pods → pods[index]? = none) → t.removals = []
  noTargets_iff : outcome = .ok .noTargets ↔ listed = .ok []
  /-- A pod that was gone before it could be deleted counts as killed. -/
  killed_iff : ∀ pod, outcome = .ok (.killed pod) ↔
    (pod, .ok .deleted) ∈ t.removals ∨ (pod, .ok .notFound) ∈ t.removals
  unresolved_iff : ∀ cause, outcome = .error (.unresolved cause) ↔ listed = .error cause ∨
    ∃ pods, listed = .ok pods ∧ pods ≠ [] ∧ pods.length ≤ index ∧
      cause = pickError index pods.length
  removals_of_unresolved : ∀ cause, outcome = .error (.unresolved cause) → t.removals = []
  unapplied_iff : ∀ pod cause, outcome = .error (.unapplied pod cause) ↔
    (pod, .error cause) ∈ t.removals
  /-- Nothing else is asked for. -/
  asks_pods : ∀ x ∈ t, x.listing?.isSome ∨ x.pick?.isSome ∨ x.removal?.isSome

/-- Whatever course an attack takes, its exchanges and its outcome account for each other. -/
theorem Course.accounted {target : Target} {t : Trace}
    {outcome : Except AttackFailure AttackOutcome} (h : Course target t outcome) :
    ∃ listed index answer, Accounted target t outcome listed index answer := by
  cases h with
  | unlisted cause =>
    refine ⟨.error cause, 0, .ok .deleted, rfl, nofun, fun _ => rfl, nofun, fun _ => rfl, ?_, ?_,
      ?_, fun _ _ => rfl, ?_, by simp [Exchange.listing?]⟩
    · simp
    · simp [Trace.removals, Exchange.removal?]
    · simp
    · simp [Trace.removals, Exchange.removal?]
  | deserted =>
    refine ⟨.ok [], 0, .ok .deleted, rfl, ?_, fun _ => rfl, ?_, fun _ => rfl, ?_, ?_, ?_, nofun,
      ?_, by simp [Exchange.listing?]⟩
    · rintro pods ⟨rfl⟩ hne
      exact absurd rfl hne
    · rintro pods pod ⟨rfl⟩ hin
      cases hin
    · simp
    · simp [Trace.removals, Exchange.removal?]
    · simp
    · simp [Trace.removals, Exchange.removal?]
  | missed pods index hne hout =>
    have hle : pods.length ≤ index := List.getElem?_eq_none_iff.1 hout
    refine ⟨.ok pods, index, .ok .deleted, rfl, ?_, ?_, ?_, fun _ => rfl, ?_, ?_, ?_,
      fun _ _ => rfl, ?_, by simp [Exchange.listing?, Exchange.pick?]⟩
    · rintro _ ⟨rfl⟩ -
      rfl
    · exact fun hempty => absurd (hempty pods rfl) hne
    · rintro _ pod ⟨rfl⟩ hin
      cases hout.symm.trans hin
    · simp [hne]
    · simp [Trace.removals, Exchange.removal?]
    · simp [hne, hle, eq_comm]
    · simp [Trace.removals, Exchange.removal?]
  | struck pods index pod answer hin =>
    have hlt : ¬ pods.length ≤ index := Nat.not_le.2 (List.getElem?_eq_some_iff.1 hin).1
    have hne : pods ≠ [] := by
      rintro rfl
      exact hlt (Nat.zero_le _)
    have hremovals : Trace.removals [⟨.delete pod.namespace pod.name, answer⟩,
        ⟨.pick pods.length, index⟩, ⟨.list target.namespace target.selector, .ok pods⟩] =
        [(pod, answer)] := rfl
    refine ⟨.ok pods, index, answer, rfl, ?_, ?_, ?_, ?_, ?_, ?_, ?_, ?_, ?_,
      by simp [Exchange.listing?, Exchange.pick?, Exchange.removal?]⟩
    · rintro _ ⟨rfl⟩ -
      rfl
    · exact fun hempty => absurd (hempty pods rfl) hne
    · rintro _ picked ⟨rfl⟩ hpicked
      obtain rfl := Option.some.inj (hin.symm.trans hpicked)
      exact hremovals
    · exact fun hout => nomatch hin.symm.trans (hout pods rfl)
    · cases answer <;> simp [outcomeOf, hne]
    · rw [hremovals]
      rcases answer with cause | ⟨_ | _⟩ <;> simp [outcomeOf, eq_comm]
    · refine fun cause => ⟨fun h => ?_, ?_⟩
      · cases answer <;> cases h
      · rintro (h | ⟨_, ⟨rfl⟩, -, hle, -⟩)
        · cases h
        · exact absurd hle hlt
    · intro cause h
      cases answer <;> cases h
    · rw [hremovals]
      cases answer <;> simp [outcomeOf, eq_comm]

/-- Whatever is replied, an attack takes one of its courses, and no deletion comes before the last
    of its requests. -/
theorem keeps_course (target : Target) :
    (podKill.execute target).Keeps (fun t _ => t.removals = [])
      (fun t ending => ∃ outcome, ending = .finished outcome ∧ Course target t outcome) [] := by
  rw [← bind_pure (podKill.execute target)]
  apply keeps_execute_bind rfl
  · exact fun cause => ⟨_, rfl, .unlisted cause⟩
  · exact ⟨_, rfl, .deserted⟩
  · intro pods hne
    refine ⟨rfl, fun index => ⟨fun hout => ?_, fun pod hin => ⟨rfl, fun cause => ?_,
      fun deletion => ?_⟩⟩⟩
    · exact ⟨_, rfl, .missed pods index hne hout⟩
    · exact ⟨_, rfl, .struck pods index pod (.error cause) hin⟩
    · exact ⟨_, rfl, .struck pods index pod (.ok deletion) hin⟩

end Attack

/-! ## Recorded exchanges -/

namespace Invocation

variable {σ α : Type} {serve : σ → (r : Request) → Option r.Reply × σ} {start s : σ} {t : Trace}

/-- The exchanges of a trace take one state to another. -/
inductive Served (serve : σ → (r : Request) → Option r.Reply × σ) (start : σ) : Trace → σ → Prop
  | nothing : Served serve start [] start
  | exchange {t : Trace} {s next : σ} {r : Request} {reply : r.Reply} (h : Served serve start t s)
      (hreply : serve s r = (some reply, next)) : Served serve start (⟨r, reply⟩ :: t) next

/-- A recorded run ends as all traces of the invocation allow, or it is cut off at a request that
    may follow its trace. -/
theorem Keeps.recorded {asks : Trace → Request → Prop} {ends : Trace → Ending α → Prop}
    {i : Invocation α} (h : i.Keeps asks ends t) (hserved : Served serve start t s) :
    let run := i.run (Invocation.recorded serve) (s, t)
    ends run.2.2 run.1 ∧ Served serve start run.2.2 run.2.1 ∨
      run.1 = .cutOff ∧ ∃ s r, asks run.2.2 r ∧ Served serve start run.2.2 s ∧
        serve s r = (none, run.2.1) := by
  induction i generalizing s t with
  | done a => exact .inl ⟨h, hserved⟩
  | abort => exact .inl ⟨h, hserved⟩
  | ask r resume ih =>
    rcases hreply : serve s r with ⟨_ | reply, next⟩
    · rw [run_recorded_of_none hreply]
      exact .inr ⟨rfl, s, r, h.1, hserved, hreply⟩
    · rw [run_recorded_of_some hreply]
      exact ih reply (h.2 reply) (hserved.exchange hreply)

end Invocation

/-! ## The pods that are left -/

/-- A deletion that has been done was asked for. -/
theorem Exchange.removal?_of_deleted? {x : Exchange} {pod : Pod} (h : x.deleted? = some pod) :
    x.removal? = some (pod, .ok .deleted) := by
  obtain ⟨r, reply⟩ := x
  cases r with
  | delete ns name =>
    rcases reply with cause | ⟨_ | _⟩
    · cases h
    · obtain rfl := Option.some.inj h
      rfl
    · cases h
  | get | list | pick | update | publish => cases h

/-- How a cluster treats its pods, of which `pods` tells for each state of it, as long as they are
    those of `stock`. It lists no others. A deletion that it reports takes the pods with the
    namespace and the name that were given, and nothing else takes any. -/
structure ExactDeletions {σ : Type} (serve : σ → (r : Request) → Option r.Reply × σ)
    (pods : σ → List Pod) (stock : List Pod) : Prop where
  listed : ∀ s ns selector listed, pods s = stock →
    (serve s (.list ns selector)).1 = some (.ok listed) → listed ⊆ stock
  deleted : ∀ s pod, pods s = stock → pod ∈ stock →
    (serve s (.delete pod.namespace pod.name)).1 = some (.ok .deleted) →
    pods (serve s (.delete pod.namespace pod.name)).2 =
      stock.filter fun p => ¬ (p.namespace = pod.namespace ∧ p.name = pod.name)
  kept : ∀ s r, pods s = stock →
    (∀ reply, (serve s r).1 = some reply → Exchange.deleted? ⟨r, reply⟩ = none) →
    pods (serve s r).2 = stock

namespace ExactDeletions

variable {σ : Type} {serve : σ → (r : Request) → Option r.Reply × σ} {pods : σ → List Pod}
  {stock : List Pod} {start s : σ} {t : Trace}

/-- All pods are there as long as no deletion has been asked for. -/
theorem pods_eq (h : ExactDeletions serve pods stock) (hstart : pods start = stock)
    (hserved : Invocation.Served serve start t s) (ht : t.removals = []) : pods s = stock := by
  -- By induction on the exchanges, none of which is a deletion.
  induction hserved with
  | nothing => exact hstart
  | @exchange t s next r reply _ hreply ih =>
    obtain ⟨hx, ht⟩ : Exchange.removal? ⟨r, reply⟩ = none ∧ t.removals = [] := by
      cases hx : Exchange.removal? ⟨r, reply⟩ <;> simp_all [Trace.removals]
    have hkept : Exchange.deleted? ⟨r, reply⟩ = none := by
      cases hd : Exchange.deleted? ⟨r, reply⟩ with
      | none => rfl
      | some pod => cases hx.symm.trans (Exchange.removal?_of_deleted? hd)
    have hnext := h.kept s r (ih ht) fun other hother => by
      rw [hreply] at hother
      obtain rfl := Option.some.inj hother
      exact hkept
    rwa [hreply] at hnext

/-- The pods that are picked from are pods of the cluster. -/
theorem subset_of_served (h : ExactDeletions serve pods (pods start)) {ns selector : String}
    {listed : List Pod} {count index : Nat}
    (hserved : Invocation.Served serve start
      [⟨.pick count, index⟩, ⟨.list ns selector, .ok listed⟩] s) : listed ⊆ pods start := by
  cases hserved with
  | exchange hserved _ =>
    cases hserved with
    | exchange hserved hlist =>
      cases hserved with
      | nothing => exact h.listed start ns selector listed rfl (by rw [hlist])

/-- An attack takes the pods with the namespace and the name of the killed one, if its deletion is
    reported, and no pods otherwise. -/
theorem left_of_course (h : ExactDeletions serve pods (pods start)) {target : Target}
    {outcome : Except AttackFailure AttackOutcome} (hcourse : Attack.Course target t outcome)
    (hserved : Invocation.Served serve start t s) :
    (∀ pod, (pod, .ok .deleted) ∈ t.removals → outcome = .ok (.killed pod) ∧
      pods s = (pods start).filter fun p => ¬ (p.namespace = pod.namespace ∧ p.name = pod.name)) ∧
    ((∀ pod, (pod, .ok .deleted) ∉ t.removals) → pods s = pods start) := by
  cases hcourse with
  | unlisted | deserted | missed =>
    exact ⟨fun pod hmem => (nomatch hmem), fun _ => h.pods_eq rfl hserved rfl⟩
  | struck listed index pod reply hin =>
    -- The deletion is the last exchange, and finds all pods there; the pod is one of them.
    cases hserved with
    | @exchange _ s _ _ _ hearlier hreply =>
      have hs : pods s = pods start := h.pods_eq rfl hearlier rfl
      have hmem : pod ∈ pods start := h.subset_of_served hearlier (List.mem_of_getElem? hin)
      refine ⟨fun other hother => ?_, fun hnone => ?_⟩
      · cases List.mem_singleton.1 hother
        have hleft := h.deleted s pod hs hmem (by rw [hreply])
        rw [hreply] at hleft
        exact ⟨rfl, hleft⟩
      · have hleft := h.kept s (.delete pod.namespace pod.name) hs fun other hother => by
          rw [hreply] at hother
          obtain rfl := Option.some.inj hother
          rcases reply with cause | ⟨_ | _⟩
          · rfl
          · exact absurd List.mem_cons_self (hnone pod)
          · rfl
        rwa [hreply] at hleft

end ExactDeletions

/-! ## Clusters -/

/-- The stand-in for a cluster that the controller is tested with, as far as an attack goes. It
    lists all pods, whatever the selector, and picks the same position every time. A deletion takes
    all pods of the name, whatever their namespace, and is reported if there were any. -/
def StandIn.answer (index : Nat) (pods : List Pod) : (r : Request) → Option r.Reply × List Pod
  | .list _ _ => (some (.ok pods), pods)
  | .pick _ => (some index, pods)
  | .delete _ name =>
    let left := pods.filter (·.name != name)
    (some (.ok (if left.length < pods.length then .deleted else .notFound)), left)
  | .get _ _ | .update _ _ => (none, pods)
  | .publish _ => (some (), pods)

/-- As long as no name is used in two namespaces, it is no matter that the stand-in goes by names
    alone. -/
theorem StandIn.exactDeletions (index : Nat) {stock : List Pod}
    (h : ∀ p ∈ stock, ∀ q ∈ stock, p.name = q.name → p.namespace = q.namespace) :
    ExactDeletions (answer index) id stock where
  listed := by
    rintro s ns selector listed rfl ⟨rfl⟩
    exact List.Subset.refl s
  deleted := by
    rintro s pod rfl hmem -
    refine List.filter_congr fun p hp => ?_
    by_cases hname : p.name = pod.name
    · simp [hname, h p hp pod hmem hname]
    · simp [hname]
  kept := by
    rintro s r rfl hkept
    cases r with
    | list | pick | get | update | publish => rfl
    | delete ns name =>
      -- If nothing is reported then the name is not used.
      have hlength : ¬ (s.filter (·.name != name)).length < s.length := fun hlt => by
        have hnone := hkept (.ok .deleted) (by simp [answer, hlt])
        cases hnone
      exact List.filter_sublist.eq_of_length_le (Nat.not_lt.1 hlength)

namespace Session

/-- Waiting does nothing to a cluster. -/
theorem cluster_of_wait? {s waited : Session} {delay : Duration}
    (h : s.wait? delay = some waited) : waited.cluster = s.cluster := by
  simp only [wait?] at h
  split at h
  next =>
    obtain rfl := Option.some.inj h
    rfl
  next => cases h

/-- A session lists no pods but those of its cluster. -/
theorem subset_of_listed {s : Session} {ns selector : String} {listed : List Pod}
    (h : (s.answer (.list ns selector)).1 = some (.ok listed)) : listed ⊆ s.cluster.pods := by
  simp only [answer, after] at h
  split at h
  next => cases h
  next waited hwait =>
    have hreply : waited.listPods.1 = .ok listed := Option.some.inj h
    unfold listPods at hreply
    split at hreply
    next => cases hreply
    next =>
      obtain rfl := Except.ok.inj hreply
      rw [cluster_of_wait? hwait]
      exact List.Subset.refl _

/-- An answer takes the pod whose deletion it reports, and no other. -/
theorem pods_answer (s : Session) (r : Request) :
    (∃ next, s.answer r = (none, next) ∧ next.cluster.pods = s.cluster.pods) ∨
      ∃ reply next, s.answer r = (some reply, next) ∧ next.cluster.pods =
        s.cluster.pods.filter
          (! ([⟨r, reply⟩].filterMap Exchange.deleted?).contains ·) := by
  obtain ⟨effect, waited, heffect, hawaits, hdone | hcut⟩ :=
    answerBy_awaits (fun _ => s.faults) s r
  · have hleft := (heffect.leftBy (.nil waited)).pods
    rw [hawaits.cluster] at hleft
    exact .inr ⟨_, _, hdone, hleft⟩
  · exact .inl ⟨waited, hcut, congrArg Cluster.pods hawaits.cluster⟩

/-- A session deletes exactly, whatever is made to fail. -/
theorem exactDeletions (stock : List Pod) :
    ExactDeletions answer (fun s => s.cluster.pods) stock where
  listed := by
    rintro s ns selector listed rfl h
    exact subset_of_listed h
  deleted := by
    rintro s pod rfl - h
    obtain ⟨next, hanswer, -⟩ | ⟨reply, next, hanswer, hpods⟩ :=
      s.pods_answer (.delete pod.namespace pod.name)
    · rw [hanswer] at h
      cases h
    · rw [hanswer] at h ⊢
      obtain rfl := Option.some.inj h
      refine hpods.trans (List.filter_congr fun p _ => ?_)
      have hpod : p = ⟨pod.namespace, pod.name⟩ ↔
          p.namespace = pod.namespace ∧ p.name = pod.name := by
        cases p
        simp
      simp [Exchange.deleted?, ← hpod]
  kept := by
    rintro s r rfl hkept
    obtain ⟨next, hanswer, hpods⟩ | ⟨reply, next, hanswer, hpods⟩ := s.pods_answer r
    · rw [hanswer]
      exact hpods
    · have hnone := hkept reply (by rw [hanswer])
      rw [hanswer]
      refine hpods.trans (List.filter_eq_self.2 fun p _ => ?_)
      simp [hnone]

end Session

/-! ## The main result -/

/-- One attack, whatever it is answered. Pods are listed once, the picker is asked once if any are
    listed, and a deletion is asked for once if the pick is a position in the list; how the attack
    ends says which of it has happened and what the answer was (`Attack.Accounted`). On a cluster
    that deletes exactly, the pods that are left are those that were there, in their order, but for
    those with the namespace and the name of the killed one if its deletion is reported; a deletion
    that fails, or finds nothing, takes none, and neither does an attack without one. -/
theorem execute_course :
    (∀ (oracle : Oracle) (target : Target),
      let run := (Attack.podKill.execute target).consult oracle []
      ∃ outcome listed index answer, run.1 = .finished outcome ∧
        Attack.Accounted target run.2 outcome listed index answer) ∧
    ∀ {σ : Type} (serve : σ → (r : Request) → Option r.Reply × σ) (pods : σ → List Pod)
      (start : σ), ExactDeletions serve pods (pods start) → ∀ target : Target,
      let run := (Attack.podKill.execute target).run (Invocation.recorded serve) (start, [])
      (∀ pod, (pod, .ok .deleted) ∈ run.2.2.removals → run.1 = .finished (.ok (.killed pod)) ∧
        pods run.2.1 = (pods start).filter fun p =>
          ¬ (p.namespace = pod.namespace ∧ p.name = pod.name)) ∧
      ((∀ pod, (pod, .ok .deleted) ∉ run.2.2.removals) → pods run.2.1 = pods start) := by
  refine ⟨fun oracle target => ?_, fun serve pods start h target => ?_⟩
  · obtain ⟨outcome, hending, hcourse⟩ := (Attack.keeps_course target).consult oracle
    obtain ⟨listed, index, answer, haccounted⟩ := hcourse.accounted
    exact ⟨outcome, listed, index, answer, hending, haccounted⟩
  · intro run
    have hstart : Invocation.Served serve start [] start := .nothing
    obtain ⟨⟨outcome, hending, hcourse⟩, hserved⟩ | ⟨-, s, r, hnone, hserved, hcut⟩ :=
      (Attack.keeps_course target).recorded hstart
    · rw [hending]
      obtain ⟨hkilled, hkept⟩ := h.left_of_course hcourse hserved
      refine ⟨fun pod hmem => ?_, hkept⟩
      obtain ⟨rfl, hleft⟩ := hkilled pod hmem
      exact ⟨rfl, hleft⟩
    · -- A run that is cut off has not been answered to a deletion.
      refine ⟨fun pod hmem => absurd hmem (by rw [hnone]; exact List.not_mem_nil), fun _ => ?_⟩
      have hkept := h.kept s r (h.pods_eq rfl hserved hnone) fun reply hreply => by
        rw [hcut] at hreply
        cases hreply
      rwa [hcut] at hkept

/-- The list holds the same pod twice, and another one between. The picked position is the last;
    both copies of the pod are gone then, and nothing else, on the stand-in that the controller is
    tested with as well as in a session. -/
theorem execute_course_twice :
    let pod : Pod := ⟨"demo", "web"⟩
    let other : Pod := ⟨"demo", "db"⟩
    let target : Target := ⟨"demo", ⟨[("app", "web")], by decide⟩⟩
    let stock := [pod, other, pod]
    let onStandIn := (Attack.podKill.execute target).run
      (Invocation.recorded (StandIn.answer 2)) (stock, [])
    let inSession := (Attack.podKill.execute target).run (Invocation.recorded Session.answer)
      (Session.start ⟨none, stock⟩ .none [2], [])
    (onStandIn.1 = .finished (.ok (.killed pod)) ∧ onStandIn.2.1 = [other]) ∧
      inSession.1 = .finished (.ok (.killed pod)) ∧ inSession.2.1.cluster.pods = [other] := by
  intro pod other target stock onStandIn inSession
  have hstandIn : ExactDeletions (StandIn.answer 2) id stock :=
    StandIn.exactDeletions 2 (by decide)
  have hdone : (pod, .ok .deleted) ∈ onStandIn.2.2.removals := List.mem_cons_self
  have hreported : (pod, .ok .deleted) ∈ inSession.2.2.removals := List.mem_cons_self
  exact ⟨(execute_course.2 _ _ stock hstandIn target).1 pod hdone,
    (execute_course.2 _ _ (Session.start ⟨none, stock⟩ .none [2])
      (Session.exactDeletions stock) target).1 pod hreported⟩

end ChaosController
