/-
  ChaosController.Proofs.Trace

  What an invocation has asked and been told, and a logic for it.

  A trace lists the exchanges of an invocation so far, the latest first. `Reaches` says what is
  left of an invocation after a trace, whoever gave the replies. `Keeps` speaks of all traces at
  once: it says what may be asked, and how the invocation may end, in terms of the trace behind.
  Its rules follow the ways in which the controller builds its invocations.
-/

import ChaosController.Reconcile

namespace ChaosController

/-! ## Traces -/

/-- A request and its reply. -/
structure Exchange where
  request : Request
  reply : request.Reply

/-- The exchanges of an invocation, the latest first. -/
abbrev Trace := List Exchange

namespace Exchange

/-- The record that an exchange hands to the invocation: one that is read or newly written. -/
def record? : Exchange → Option Experiment
  | ⟨.get _ _, .ok record⟩ => record
  | ⟨.update _ _, .ok record⟩ => some record
  | ⟨.get _ _, .error _⟩ | ⟨.update _ _, .error _⟩ => none
  | ⟨.list _ _, _⟩ | ⟨.pick _, _⟩ | ⟨.delete _ _, _⟩ | ⟨.publish _, _⟩ => none

/-- The record that is read in an exchange. -/
def fetched? : Exchange → Option Experiment
  | ⟨.get _ _, .ok record⟩ => record
  | ⟨.get _ _, .error _⟩ => none
  | ⟨.update _ _, _⟩ | ⟨.list _ _, _⟩ | ⟨.pick _, _⟩ | ⟨.delete _ _, _⟩ | ⟨.publish _, _⟩ => none

/-- How the deletion of a pod was answered. -/
def deletion? : Exchange → Option (Except Error Deletion)
  | ⟨.delete _ _, reply⟩ => some reply
  | ⟨.get _ _, _⟩ | ⟨.update _ _, _⟩ | ⟨.list _ _, _⟩ | ⟨.pick _, _⟩ | ⟨.publish _, _⟩ => none

/-- Whether a status write was asked for. -/
def isWrite : Exchange → Bool
  | ⟨.update _ _, _⟩ => true
  | ⟨.get _ _, _⟩ | ⟨.list _ _, _⟩ | ⟨.pick _, _⟩ | ⟨.delete _ _, _⟩ | ⟨.publish _, _⟩ => false

/-- Whether a status write was answered with an error. -/
def isFailedWrite : Exchange → Bool
  | ⟨.update _ _, .error _⟩ => true
  | ⟨.update _ _, .ok _⟩ => false
  | ⟨.get _ _, _⟩ | ⟨.list _ _, _⟩ | ⟨.pick _, _⟩ | ⟨.delete _ _, _⟩ | ⟨.publish _, _⟩ => false

/-- Whether the deletion of a pod was asked for. -/
def isDeletion (x : Exchange) : Bool := x.deletion?.isSome

theorem record?_of_fetched? {x : Exchange} {e : Experiment} (h : x.fetched? = some e) :
    x.record? = some e := by
  obtain ⟨r, reply⟩ := x
  cases r with
  | get => cases reply <;> exact h
  | update | list | pick | delete | publish => cases h

end Exchange

namespace Trace

/-- The record that the invocation goes by: the one that was last read or written by it. -/
def base? (t : Trace) : Option Experiment := t.findSome? Exchange.record?

/-- The record that the invocation has read. -/
def read? (t : Trace) : Option Experiment := t.findSome? Exchange.fetched?

/-- How the deletion of a pod was answered that no status write has followed yet. -/
def strike? : Trace → Option (Except Error Deletion)
  | [] => none
  | x :: t => if x.isWrite then none else x.deletion?.or (strike? t)

/-- The number of status writes. -/
def writes (t : Trace) : Nat := t.countP Exchange.isWrite

/-- The number of status writes that failed. -/
def failedWrites (t : Trace) : Nat := t.countP Exchange.isFailedWrite

/-- The number of deletions that were asked for. -/
def deletions (t : Trace) : Nat := t.countP Exchange.isDeletion

@[simp] theorem base?_cons (x : Exchange) (t : Trace) :
    base? (x :: t) = x.record?.or (base? t) := by
  cases h : x.record? <;> simp [base?, List.findSome?, h]

@[simp] theorem read?_cons (x : Exchange) (t : Trace) :
    read? (x :: t) = x.fetched?.or (read? t) := by
  cases h : x.fetched? <;> simp [read?, List.findSome?, h]

@[simp] theorem strike?_nil : strike? [] = none := rfl

@[simp] theorem strike?_cons (x : Exchange) (t : Trace) :
    strike? (x :: t) = if x.isWrite then none else x.deletion?.or (strike? t) := rfl

@[simp] theorem writes_nil : writes [] = 0 := rfl

@[simp] theorem writes_cons (x : Exchange) (t : Trace) :
    writes (x :: t) = writes t + if x.isWrite then 1 else 0 := List.countP_cons

@[simp] theorem failedWrites_nil : failedWrites [] = 0 := rfl

@[simp] theorem failedWrites_cons (x : Exchange) (t : Trace) :
    failedWrites (x :: t) = failedWrites t + if x.isFailedWrite then 1 else 0 :=
  List.countP_cons

@[simp] theorem deletions_nil : deletions [] = 0 := rfl

@[simp] theorem deletions_cons (x : Exchange) (t : Trace) :
    deletions (x :: t) = deletions t + if x.isDeletion then 1 else 0 := List.countP_cons

end Trace

/-! ## The logic -/

namespace Invocation

variable {α β : Type}

/-- What is left of an invocation after a trace. -/
inductive Reaches (i : Invocation α) : Trace → Invocation α → Prop
  | start : Reaches i [] i
  | exchange {t : Trace} {r : Request} {resume : r.Reply → Invocation α} (reply : r.Reply) :
      Reaches i t (.ask r resume) → Reaches i (⟨r, reply⟩ :: t) (resume reply)

/-- An exchange begins with a request. -/
theorem Reaches.asked {i rest : Invocation α} {t : Trace} {x : Exchange}
    (h : i.Reaches (x :: t) rest) : ∃ resume, i.Reaches t (.ask x.request resume) := by
  cases h with
  | exchange reply h => exact ⟨_, h⟩

/-- An invocation with a trace behind it asks only what `asks` allows after the trace so far,
    and ends only as `ends` allows, whatever the replies are. -/
def Keeps (asks : Trace → Request → Prop) (ends : Trace → Ending α → Prop) :
    Invocation α → Trace → Prop
  | done a, t => ends t (.finished a)
  | abort, t => ends t .aborted
  | ask r resume, t => asks t r ∧ ∀ reply, Keeps asks ends (resume reply) (⟨r, reply⟩ :: t)

variable {asks : Trace → Request → Prop} {ends : Trace → Ending α → Prop} {t : Trace}

/-- An invocation that is over asks nothing. -/
theorem reaches_done {a : α} {rest : Invocation α} (h : (done a).Reaches t rest) :
    t = [] ∧ rest = done a := by
  induction h with
  | start => exact ⟨rfl, rfl⟩
  | exchange reply _ ih => cases ih.2

/-- An invocation that has aborted asks nothing. -/
theorem reaches_abort {rest : Invocation α} (h : (abort : Invocation α).Reaches t rest) :
    t = [] ∧ rest = abort := by
  induction h with
  | start => exact ⟨rfl, rfl⟩
  | exchange reply _ ih => cases ih.2

/-- What follows a request is what follows its reply. -/
theorem reaches_ask {r : Request} {resume : r.Reply → Invocation α} {rest : Invocation α}
    (h : (ask r resume).Reaches t rest) :
    t = [] ∧ rest = ask r resume ∨
      ∃ reply later, t = later ++ [⟨r, reply⟩] ∧ (resume reply).Reaches later rest := by
  induction h with
  | start => exact .inl ⟨rfl, rfl⟩
  | exchange reply _ ih =>
    obtain ⟨rfl, hrest⟩ | ⟨first, later, rfl, hlater⟩ := ih
    · cases hrest
      exact .inr ⟨reply, [], rfl, .start⟩
    · exact .inr ⟨first, _ :: later, rfl, .exchange reply hlater⟩

/-- What all traces of an invocation keep is kept by what is left of it after one of them. -/
theorem Keeps.reaches {i rest : Invocation α} (h : i.Keeps asks ends [])
    (hr : i.Reaches t rest) : rest.Keeps asks ends t := by
  induction hr with
  | start => exact h
  | exchange reply _ ih => exact ih.2 reply

/-- Every exchange of a trace was allowed after the exchanges before it. -/
theorem Keeps.asked {i rest : Invocation α} (h : i.Keeps asks ends []) (hr : i.Reaches t rest)
    {later earlier : Trace} {x : Exchange} (ht : t = later ++ x :: earlier) :
    asks earlier x.request := by
  induction hr generalizing later with
  | start => simp at ht
  | exchange reply hr ih =>
    cases later with
    | nil =>
      obtain ⟨rfl, rfl⟩ := List.cons.inj ht
      exact (h.reaches hr).1
    | cons y later => exact ih (List.cons.inj ht).2

end Invocation

/-! ## Rules for the steps of the controller

Each rule says what a step asks for and with which traces the rest of the attempt goes on. -/

section Rules

open Invocation

variable {α : Type} {asks : Trace → Request → Prop} {t : Trace}

/-- An attack lists the pods, picks one and deletes it; `f` goes on with its outcome. -/
theorem Attack.keeps_execute_bind {attack : Attack} {target : Target}
    {f : Except AttackFailure AttackOutcome → Invocation α} {ends : Trace → Ending α → Prop}
    (hlist : asks t (.list target.namespace target.selector))
    (hunlisted : ∀ cause, (f (.error (.unresolved cause))).Keeps asks ends
      (⟨.list target.namespace target.selector, .error cause⟩ :: t))
    (hnone : (f (.ok .noTargets)).Keeps asks ends
      (⟨.list target.namespace target.selector, .ok []⟩ :: t))
    (hpods : ∀ pods, pods ≠ [] →
      let t := ⟨.list target.namespace target.selector, .ok pods⟩ :: t
      asks t (.pick pods.length) ∧ ∀ index,
        let t := ⟨.pick pods.length, index⟩ :: t
        (pods[index]? = none → (f (.error (.unresolved (pickError index pods.length)))).Keeps
          asks ends t) ∧
        ∀ pod, pods[index]? = some pod → asks t (.delete pod.namespace pod.name) ∧
          (∀ cause, (f (.error (.unapplied pod cause))).Keeps asks ends
            (⟨.delete pod.namespace pod.name, .error cause⟩ :: t)) ∧
          ∀ deletion, (f (.ok (.killed pod))).Keeps asks ends
            (⟨.delete pod.namespace pod.name, .ok deletion⟩ :: t)) :
    (attack.execute target >>= f).Keeps asks ends t := by
  cases attack with
  | podKill =>
    refine ⟨hlist, fun reply => ?_⟩
    match reply with
    | .error cause => exact hunlisted cause
    | .ok [] => exact hnone
    | .ok (pod :: pods) =>
      -- The list is not empty, so a pod is picked; the index may still be out of range.
      obtain ⟨hpick, hindex⟩ := hpods (pod :: pods) (List.cons_ne_nil _ _)
      refine ⟨hpick, fun index => ?_⟩
      obtain ⟨hout, hin⟩ := hindex index
      show ((Attack.podKill.applyAt (pod :: pods) index >>= f).Keeps asks ends _)
      cases hp : (pod :: pods)[index]? with
      | none =>
        simp only [Attack.applyAt, hp]
        exact hout hp
      | some picked =>
        obtain ⟨hdelete, hfailed, hdone⟩ := hin picked hp
        simp only [Attack.applyAt, hp]
        refine ⟨hdelete, fun reply => ?_⟩
        match reply with
        | .error cause => exact hfailed cause
        | .ok deletion => exact hdone deletion

namespace Reconcile

variable {ends : Trace → Ending (Except Error α) → Prop}

/-- A write that fails ends the attempt with its error. -/
theorem keeps_write_bind {base : Experiment} {status : Status} {f : Experiment → Attempt α} :
    (write base status >>= f).run.Keeps asks ends t ↔
      asks t (.update base status) ∧
        (∀ e, ends (⟨.update base status, .error e⟩ :: t) (.finished (.error e))) ∧
        ∀ updated, (f updated).run.Keeps asks ends
          (⟨.update base status, .ok updated⟩ :: t) := by
  constructor
  · intro ⟨h, hr⟩
    exact ⟨h, fun e => hr (.error e), fun updated => hr (.ok updated)⟩
  · intro ⟨h, he, ho⟩
    refine ⟨h, fun reply => ?_⟩
    cases reply with
    | error e => exact he e
    | ok updated => exact ho updated

/-- An event never fails. -/
theorem keeps_publish_bind {about : Experiment} {severity : Severity} {reason : Reason}
    {activity : Activity} {note : String} {f : Unit → Attempt α} :
    (publish about severity reason activity note >>= f).run.Keeps asks ends t ↔
      let event := ⟨about.reference, severity, reason.text, activity.text, some note⟩
      asks t (.publish event) ∧ (f ()).run.Keeps asks ends (⟨.publish event, ()⟩ :: t) := by
  constructor
  · intro ⟨h, hr⟩
    exact ⟨h, hr ()⟩
  · intro ⟨h, hr⟩
    exact ⟨h, fun _ => hr⟩

/-- A failure is recorded with a write, and with an event if the write is accepted; `f` goes on
    in either case. -/
theorem keeps_fail_bind_iff {c : Context} {base : Experiment} {reason : Reason}
    {activity : Activity} {message note : String} {f : Except Error Experiment → Invocation α}
    {ends : Trace → Ending α → Prop} :
    ((fail c base reason activity message note).run >>= f).Keeps asks ends t ↔
      let status := nextStatus base .failed reason message c.now
      asks t (.update base status) ∧
        (∀ e, (f (.error e)).Keeps asks ends (⟨.update base status, .error e⟩ :: t)) ∧
        ∀ updated,
          let event := ⟨updated.reference, .warning, reason.text, activity.text, some note⟩
          let t := ⟨.update base status, .ok updated⟩ :: t
          asks t (.publish event) ∧
            (f (.ok updated)).Keeps asks ends (⟨.publish event, ()⟩ :: t) := by
  constructor
  · intro ⟨h, hr⟩
    refine ⟨h, fun e => hr (.error e), fun updated => ?_⟩
    obtain ⟨hpublish, hf⟩ := hr (.ok updated)
    exact ⟨hpublish, hf ()⟩
  · intro ⟨h, he, ho⟩
    refine ⟨h, fun reply => ?_⟩
    cases reply with
    | error e => exact he e
    | ok updated => exact ⟨(ho updated).1, fun _ => (ho updated).2⟩

/-- Recording a failure needs no more than leave to write and to publish. -/
theorem keeps_fail_bind {c : Context} {base : Experiment} {reason : Reason}
    {activity : Activity} {message note : String} {f : Except Error Experiment → Invocation α}
    {ends : Trace → Ending α → Prop}
    (hwrite : asks t (.update base (nextStatus base .failed reason message c.now)))
    (hpublish : ∀ t event, asks t (.publish event)) (hf : ∀ r t, (f r).Keeps asks ends t) :
    ((fail c base reason activity message note).run >>= f).Keeps asks ends t :=
  keeps_fail_bind_iff.2 ⟨hwrite, fun _ => hf _ _, fun _ => ⟨hpublish _ _, hf _ _⟩⟩

end Reconcile

end Rules

end ChaosController
