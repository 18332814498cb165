/-
  ChaosController.Proofs.Writes

  The status writes of an invocation, and what leads to each of them.

  An invocation decides once, on the record that it reads. `Writes` lists the statuses that it
  may write after that, each with the decision, the record that it goes by and the answer to a
  deletion before it. That the controller writes nothing else is proved in
  `ChaosController.Proofs.Conduct`.
-/

import ChaosController.Proofs.Schedule
import ChaosController.Proofs.Trace

namespace ChaosController

/-! ## Records -/

/-- A minute of a day. -/
def Instant.sample (minute : Nat) (h : minute < 60 := by decide) : Instant where
  date := { year := 2026, month := 1, day := 1 }
  time := { hour := 12, minute, second := 0, nano := 0, minute_lt := h }

namespace Experiment

/-- The phase of a record. -/
def phase? (e : Experiment) : Option Phase := e.status.bind Status.phase

/-- When the last attack of a record took place. -/
def lastRun? (e : Experiment) : Option Instant := e.status.bind Status.lastRun

/-- The version of a record. -/
def version? (e : Experiment) : Option String := e.metadata.resourceVersion

/-- A record with a new version. -/
def versioned (e : Experiment) (version : String) : Experiment :=
  { e with metadata := { e.metadata with resourceVersion := some version } }

/-- A record with a new status and a new version. -/
def stamped (e : Experiment) (status : Status) (version : String) : Experiment :=
  { e.versioned version with status := some status }

/-- An experiment that kills web pods of a lab. -/
def sample (mode : Mode) (duration : Option String) (phase : Option Phase)
    (lastRun : Option Instant) : Experiment where
  metadata := { Metadata.empty with
    name := some "sample", «namespace» := some "lab", resourceVersion := some "1" }
  spec := ⟨⟨"lab", ⟨[("app", "web")], by decide⟩⟩, .podKill, duration, mode⟩
  status := some { Status.empty with phase, lastRun }

@[simp] theorem version?_sample (mode : Mode) (duration : Option String) (phase : Option Phase)
    (lastRun : Option Instant) : (sample mode duration phase lastRun).version? = some "1" := rfl

@[simp] theorem version?_versioned (e : Experiment) (v : String) :
    (e.versioned v).version? = some v := rfl

/-- A record has its version already. -/
theorem versioned_of_version {e : Experiment} {v : String} (h : e.version? = some v) :
    e.versioned v = e := by
  unfold versioned
  rw [← h]
  rfl

@[simp] theorem spec_versioned (e : Experiment) (v : String) : (e.versioned v).spec = e.spec := rfl

@[simp] theorem status_versioned (e : Experiment) (v : String) :
    (e.versioned v).status = e.status := rfl

@[simp] theorem version?_stamped (e : Experiment) (s : Status) (v : String) :
    (e.stamped s v).version? = some v := rfl

@[simp] theorem spec_stamped (e : Experiment) (s : Status) (v : String) :
    (e.stamped s v).spec = e.spec := rfl

@[simp] theorem phase?_stamped (e : Experiment) (s : Status) (v : String) :
    (e.stamped s v).phase? = s.phase := rfl

@[simp] theorem lastRun?_stamped (e : Experiment) (s : Status) (v : String) :
    (e.stamped s v).lastRun? = s.lastRun := rfl

end Experiment

/-! ## Status writes -/

/-- The decisions that lead to an attack, or to the end of a run. -/
def Decision.acts : Decision → Bool
  | complete | retrigger | attack => true
  | enroll | waitFor _ | terminate => false

namespace Reconcile

@[simp] theorem phase_nextStatus (base : Experiment) (phase : Phase) (reason : Reason)
    (message : String) (now : Instant) :
    (nextStatus base phase reason message now).phase = some phase := rfl

/-- A status carries the time of the last attack over from the record it is told from. -/
@[simp] theorem lastRun_nextStatus (base : Experiment) (phase : Phase) (reason : Reason)
    (message : String) (now : Instant) :
    (nextStatus base phase reason message now).lastRun = base.lastRun? := by
  cases h : base.status <;> simp [nextStatus, Experiment.lastRun?, h, Status.empty]

/-- What a record needs next when it is read. -/
def decision (c : Context) (read : Experiment) : Decision :=
  schedule read.spec.mode read.spec.verdict.duration? read.status c.now

/-- The record that was read leads to an attack, and the attack goes by the record `base`. -/
structure Attacks (c : Context) (read base : Experiment) : Prop where
  valid : ∃ duration, read.spec.verdict = .valid duration
  known : ∃ attack, read.spec.attack.attack? = some attack
  decided : decision c read = .attack ∧ base = read ∨ decision c read = .retrigger ∨
    decision c read = .complete ∧ read.spec.mode ≠ .oneShot

/-- An attack that an earlier write of the invocation leads to goes by whatever record that
    write gives back. -/
theorem Attacks.rebase {c : Context} {read base : Experiment} (h : Attacks c read base)
    (hne : decision c read ≠ .attack) (updated : Experiment) : Attacks c read updated where
  valid := h.valid
  known := h.known
  decided := h.decided.imp_left fun hd => absurd hd.1 hne

/-- No attack comes before the gate of the duration is open. -/
theorem Attacks.gateOpen {c : Context} {read base : Experiment} (h : Attacks c read base) :
    GateOpen read.spec.verdict.duration? (elapsed? read.status c.now) := by
  obtain ⟨hd, -⟩ | hd | ⟨hd, -⟩ := h.decided
  · intro d e hduration helapsed
    obtain ⟨-, hnone | ⟨hnone, -⟩⟩ := of_schedule_eq_attack hd
    · rw [hnone] at helapsed
      cases helapsed
    · rw [hnone] at hduration
      cases hduration
  · exact (of_schedule_eq_retrigger hd).2.2
  · exact (of_schedule_eq_complete hd).2.2.1

/-- A one-shot experiment is attacked only before its first attack, and goes by the record that
    was read. -/
theorem Attacks.of_oneShot {c : Context} {read base : Experiment} (h : Attacks c read base)
    (hmode : read.spec.mode = .oneShot) :
    decision c read = .attack ∧ base = read ∧
      (∃ phase, read.phase? = some phase ∧ phase.isFinished = false) ∧ read.lastRun? = none := by
  obtain ⟨hd, hb⟩ | hd | ⟨-, hne⟩ := h.decided
  · obtain ⟨hphase, hnone | ⟨-, hrec⟩⟩ := of_schedule_eq_attack hd
    · exact ⟨hd, hb, hphase, Option.map_eq_none_iff.1 hnone⟩
    · rw [hmode] at hrec
      cases hrec
  · rw [(of_schedule_eq_retrigger hd).2.1] at hmode
    cases hmode
  · exact absurd hmode hne

/-- A status that is told from a record: its own with phase, message and conditions replaced,
    and with the time of the invocation if an attack is recorded. -/
inductive Derived (c : Context) (base : Experiment) : Status → Prop
  | kept (phase : Phase) (reason : Reason) (message : String) :
      Derived c base (nextStatus base phase reason message c.now)
  | run (phase : Phase) (reason : Reason) (message : String) :
      Derived c base ((nextStatus base phase reason message c.now).recordRun c.now)

/-- The phase in which a kill leaves a record. -/
def phaseAfterKill (c : Context) (read base : Experiment) : Phase :=
  match delayAfterAttack base.spec.mode read.spec.verdict.duration?
      c.settings.recurringInterval with
  | some _ => .running
  | none => .completed

/-- After a kill a run goes on, or it is over. -/
theorem phaseAfterKill_cases (c : Context) (read base : Experiment) :
    phaseAfterKill c read base = .running ∨ phaseAfterKill c read base = .completed := by
  unfold phaseAfterKill
  split <;> simp

/-- The status writes of an invocation that has read `read` and goes by `base`. The answer to a
    deletion since the last write is `strike`. -/
inductive Writes (c : Context) (read base : Experiment) :
    (strike : Option (Except Error Deletion)) → Status → Prop
  | enrolled (message : String) (hd : decision c read = .enroll) (hb : base = read) :
      Writes c read base none (nextStatus base .pending .initialized message c.now)
  | completed (message : String) (hd : decision c read = .complete) (hb : base = read) :
      Writes c read base none (nextStatus base .completed .completed message c.now)
  | misconfigured (reason : Reason) (message : String) (hd : (decision c read).acts)
      (hb : base = read) :
      Writes c read base none (nextStatus base .failed reason message c.now)
  | retriggered (message : String) (ha : Attacks c read base) (hd : decision c read ≠ .attack) :
      Writes c read base none (nextStatus base .running .retriggered message c.now)
  | missed {strike : Option (Except Error Deletion)} (reason : Reason) (message : String)
      (ha : Attacks c read base) (hs : ∀ deletion, strike ≠ some (.ok deletion)) :
      Writes c read base strike (nextStatus base .failed reason message c.now)
  | killed (deletion : Deletion) (reason : Reason) (message : String)
      (ha : Attacks c read base) :
      Writes c read base (some (.ok deletion))
        ((nextStatus base (phaseAfterKill c read base) reason message c.now).recordRun c.now)

theorem Writes.derived {c : Context} {read base : Experiment}
    {strike : Option (Except Error Deletion)} {status : Status}
    (h : Writes c read base strike status) : Derived c base status := by
  cases h <;> constructor

/-- After a deletion, what is written is the outcome of an attack. -/
theorem Writes.attacks {c : Context} {read base : Experiment}
    {strike : Option (Except Error Deletion)} {status : Status}
    (h : Writes c read base strike status) (hs : strike.isSome) : Attacks c read base := by
  cases h with
  | enrolled | completed | misconfigured | retriggered => cases hs
  | missed reason message ha => exact ha
  | killed deletion reason message ha => exact ha

/-- The time of a kill, if a deletion was answered so. -/
def killTime (now : Instant) : Option (Except Error Deletion) → Option Instant
  | some (.ok _) => some now
  | some (.error _) | none => none

theorem isSome_of_killTime {now time : Instant} {strike : Option (Except Error Deletion)}
    (h : killTime now strike = some time) : strike.isSome ∧ time = now := by
  match strike, h with
  | some (.ok deletion), h => exact ⟨rfl, (Option.some.inj h).symm⟩

/-- A kill sets the time of the last attack to that of the invocation; nothing else moves it. -/
theorem Writes.lastRun {c : Context} {read base : Experiment}
    {strike : Option (Except Error Deletion)} {status : Status}
    (h : Writes c read base strike status) :
    status.lastRun = (killTime c.now strike).or base.lastRun? := by
  cases h with
  | killed deletion => rfl
  | missed reason message ha hs =>
    match strike with
    | some (.ok deletion) => exact absurd rfl (hs deletion)
    | some (.error _) => exact lastRun_nextStatus ..
    | none => exact lastRun_nextStatus ..
  | enrolled | completed | misconfigured | retriggered => exact lastRun_nextStatus ..

end Reconcile

end ChaosController
