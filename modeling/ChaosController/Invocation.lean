/-
  ChaosController.Invocation

  One invocation of the controller, as the requests it makes.

  An invocation ends with a result, aborts, or asks a request and goes on with the reply. It
  holds no state of the cluster: whoever runs it answers the requests one after another, so
  that other writers, failures and deadlines may come between any two of them.
-/

import ChaosController.Error
import ChaosController.Event

namespace ChaosController

/-- A pod by namespace and name. -/
structure Pod where
  «namespace» : String
  name : String
deriving DecidableEq, Repr

/-- How messages show a pod. -/
def Pod.text (p : Pod) : String := p.namespace ++ "/" ++ p.name

/-- What became of a pod that was to be deleted. -/
inductive Deletion
  | deleted
  /-- The pod was gone already. -/
  | notFound
deriving DecidableEq, Repr

/-- What an invocation asks for. -/
inductive Request
  /-- The stored record of an experiment. -/
  | get («namespace» name : String)
  /-- The pods of a namespace that match a selector. -/
  | list («namespace» selector : String)
  /-- A number below `count`, at random. -/
  | pick (count : Nat)
  /-- The deletion of a pod. -/
  | delete («namespace» name : String)
  /-- A new status for a record, unless the stored record has changed since `base` was
      read. -/
  | update (base : Experiment) (status : Status)
  /-- The publication of an event. -/
  | publish (event : Event)
deriving DecidableEq

/-- What a request is answered with. -/
@[reducible] def Request.Reply : Request → Type
  | get _ _ => Except Error (Option Experiment)
  | list _ _ => Except Error (List Pod)
  | pick _ => Nat
  | delete _ _ => Except Error Deletion
  | update _ _ => Except Error Experiment
  | publish _ => Unit

/-! ## Invocations -/

/-- A computation that asks requests. -/
inductive Invocation (α : Type) where
  | done (result : α)
  /-- The process aborts. -/
  | abort
  | ask (request : Request) (resume : request.Reply → Invocation α)

namespace Invocation

/-- Goes on with another invocation. -/
def andThen {α β : Type} (next : α → Invocation β) : Invocation α → Invocation β
  | done a => next a
  | abort => abort
  | ask request resume => ask request fun reply => (resume reply).andThen next

instance : Monad Invocation where
  pure := done
  bind m next := m.andThen next

/-- An invocation of one request, which ends with the reply. -/
def request (r : Request) : Invocation r.Reply := ask r done

theorem andThen_done {α : Type} (i : Invocation α) : i.andThen done = i := by
  induction i with
  | done => rfl
  | abort => rfl
  | ask r resume ih => simp [andThen, ih]

theorem andThen_assoc {α β γ : Type} (f : α → Invocation β) (g : β → Invocation γ)
    (i : Invocation α) : (i.andThen f).andThen g = i.andThen fun a => (f a).andThen g := by
  induction i with
  | done => rfl
  | abort => rfl
  | ask r resume ih => simp [andThen, ih]

@[simp] theorem done_bind {α β : Type} (a : α) (next : α → Invocation β) :
    (done a >>= next) = next a := rfl

@[simp] theorem abort_bind {α β : Type} (next : α → Invocation β) :
    ((abort : Invocation α) >>= next) = abort := rfl

@[simp] theorem ask_bind {α β : Type} (r : Request) (resume : r.Reply → Invocation α)
    (next : α → Invocation β) :
    (ask r resume >>= next) = ask r fun reply => resume reply >>= next := rfl

instance : LawfulMonad Invocation :=
  LawfulMonad.mk' _ (fun i => andThen_done i) (fun _ _ => rfl) (fun i f g => andThen_assoc f g i)

end Invocation

/-! ## Runs -/

/-- How a run of an invocation ends. -/
inductive Ending (α : Type) where
  | finished (result : α)
  | aborted
  /-- A request has not been answered in time. -/
  | cutOff

namespace Invocation

/-- Runs an invocation. The requests are answered one after another by a state, which changes
    with each of them; the first request without a reply cuts the run off. -/
def run {σ α : Type} (answer : σ → (r : Request) → Option r.Reply × σ) :
    Invocation α → σ → Ending α × σ
  | done a, s => (.finished a, s)
  | abort, s => (.aborted, s)
  | ask request resume, s =>
    match answer s request with
    | (none, s) => (.cutOff, s)
    | (some reply, s) => run answer (resume reply) s

end Invocation

/-- A part of an invocation that may fail. -/
abbrev Attempt := ExceptT Error Invocation

end ChaosController
