/-
  ChaosController.Proofs.Leniency

  The strings of a record that are read leniently: the phase of its status and the type of its
  attack.

  Whatever string stands there, and whatever else the record holds, it decodes with all of them or
  fails with all of them, for the same reason; only the phase and the attack themselves differ
  (`PhaseOpen`, `AttackOpen`). An invocation that reads a record without a phase does nothing but
  enrol it (`Reconcile.Enrolls`).
-/

import ChaosController.Proofs.Conduct
import ChaosController.Proofs.Gaps
import ChaosController.Proofs.Rounds

namespace ChaosController

open Json

/-! ## Phases -/

/-- A phase is known by its name alone. -/
theorem Phase.ofText?_eq_some_iff {name : String} {phase : Phase} :
    ofText? name = some phase ↔ name = phase.text := by
  refine ⟨fun h => ?_, fun h => h ▸ ofText?_text phase⟩
  unfold ofText? at h
  split_ifs at h with hpending hrunning hcompleted hfailed
  all_goals
    cases h
    assumption

/-- What is read as a phase is a value. -/
theorem Phase.nameFault?_of_decodeRecorded {j : Json} {phase : Option Phase}
    (h : decodeRecorded j = .ok phase) : nameFault? j = none := by
  cases j with
  | fault => cases h
  | null | bool | num | str | arr | obj => rfl

namespace Status

variable {source : Source} {g : Gap} {x : Json} {phase : Option Phase} {s : Status}

/-- What stands for the phase decides about the phase of a status only. -/
theorem decode_fill_phase (h : Phase.decodeRecorded x = .ok phase) :
    decode source (g.fill "phase" x) =
      (fun s => { s with phase }) <$> decode source (g.fill "phase" .null) := by
  refine decodeRecord_fill (f := field "phase" Phase.decodeRecorded) rfl
    (Phase.nameFault?_of_decodeRecorded h) rfl ?_ fun hbefore => ?_
  · simp only [field, h]
    rfl
  -- The other fields are decoded from the same members.
  · have hnull : Phase.decodeRecorded .null = .ok none := rfl
    simp (disch := decide) only [optional_filled_self hbefore, optional_filled_of_ne, h, hnull]
    simp only [map_bind, map_pure]
    rfl

/-- A status without a phase is read as one whose phase is `null`. -/
theorem decode_close_phase (h : g.Lacks "phase") :
    decode source g.close = decode source (g.fill "phase" .null) := by
  refine decodeRecord_close (f := field "phase" Phase.decodeRecorded) rfl rfl rfl h ?_
  have hbefore : ∀ m ∈ g.before, m.1 ≠ "phase" := fun m hm => h m (List.mem_append_left _ hm)
  have hmissing : optional (.named (g.before ++ g.after)) 0 "phase" none Phase.decodeRecorded =
      Phase.decodeRecorded .null := by
    simp only [Json.optional, lookup_eq_none_of_ne h]
    rfl
  simp (disch := decide) only [optional_filled_self hbefore, optional_filled_of_ne, hmissing]

/-- What is decoded has the phase that stands in the document. -/
theorem phase_of_decode_fill (h : decode source (g.fill "phase" x) = .ok s) :
    Phase.decodeRecorded x = .ok s.phase := by
  obtain ⟨hmembers, hphase, -⟩ := decode_obj.1 h
  have hbefore := ne_of_checkMembers (f := field "phase" Phase.decodeRecorded) rfl hmembers
  rwa [optional_filled_self hbefore] at hphase

end Status

/-! ## Attacks -/

theorem AttackKind.ofText_eq_podKill_iff {name : String} :
    ofText name = .podKill ↔ name = "pod-kill" := by
  simp [ofText]

/-- Strings for the type of an attack make a difference to the attack only. -/
theorem AttackKind.decode_fill_type (source : Source) (g : Gap) (name other : String) :
    decode source (g.fill "type" (.str name)) =
      (fun _ => ofText name) <$> decode source (g.fill "type" (.str other)) := by
  refine decodeRecord_fill (f := field "type" decodeName) rfl rfl rfl rfl fun hbefore => ?_
  simp only [required_filled_self hbefore]
  rfl

/-! ## Records -/

namespace Experiment

variable {source : Source} {g : Gap} {xs ys ms : List (String × Json)} {e : Experiment}

/-- The record with another attack. -/
def withAttack (e : Experiment) (attack : AttackKind) : Experiment :=
  { e with spec := { e.spec with attack } }

/-- Statuses that decode alike make a difference to the status of a record only. -/
theorem decode_fill_status {change : Status → Status}
    (h : Status.decode source (obj xs) = change <$> Status.decode source (obj ys)) :
    decode source (g.fill "status" (obj xs)) =
      (fun e => { e with status := e.status.map change }) <$>
        decode source (g.fill "status" (obj ys)) := by
  have hstatus : nullable (Status.decode source) (obj xs) =
      Option.map change <$> nullable (Status.decode source) (obj ys) := by
    simp only [nullable, h]
    cases Status.decode source (obj ys) <;> rfl
  refine decodeRecord_fill (f := field "status" (nullable (Status.decode source))) rfl rfl rfl
    (check_field_congr hstatus) fun hbefore => ?_
  simp (disch := decide) only [Shape.nullableField, optional_filled_self hbefore,
    required_filled_of_ne, hstatus, map_bind, bind_map_left, map_pure]

/-- The status of a record is what stands there, if that is an object. -/
theorem status_of_decode_fill (h : decode source (g.fill "status" (obj ms)) = .ok e) :
    ∃ s, e.status = some s ∧ Status.decode source (obj ms) = .ok s := by
  obtain ⟨hmembers, -, -, hstatus⟩ := decode_obj.1 h
  have hbefore :=
    ne_of_checkMembers (f := field "status" (nullable (Status.decode source))) rfl hmembers
  rw [optional_filled_self hbefore] at hstatus
  obtain ⟨s, hs, heq⟩ := map_eq_ok.1 hstatus
  exact ⟨s, heq.symm, hs⟩

/-- Attacks that decode alike make a difference to the attack of a record only. -/
theorem decode_fill_attack {attack : AttackKind} {inner : Gap}
    (h : AttackKind.decode source (obj xs) =
      (fun _ => attack) <$> AttackKind.decode source (obj ys)) :
    decode source (g.fill "spec" (inner.fill "attack" (obj xs))) =
      (·.withAttack attack) <$> decode source (g.fill "spec" (inner.fill "attack" (obj ys))) := by
  have hspec : Spec.decode source (inner.fill "attack" (obj xs)) =
      (fun s => { s with attack }) <$> Spec.decode source (inner.fill "attack" (obj ys)) := by
    refine decodeRecord_fill (f := field "attack" (AttackKind.decode source)) rfl rfl rfl
      (check_field_congr h) fun hbefore => ?_
    simp (disch := decide) only [required_filled_self hbefore, required_filled_of_ne,
      optional_filled_of_ne, h, map_bind, bind_map_left, map_pure]
  refine decodeRecord_fill (f := field "spec" (Spec.decode source)) rfl rfl rfl
    (check_field_congr hspec) fun hbefore => ?_
  simp (disch := decide) only [Shape.nullableField, required_filled_self hbefore,
    required_filled_of_ne, optional_filled_of_ne, hspec, map_bind, bind_map_left, map_pure]
  rfl

end Experiment

/-! ## Open strings -/

/-- A string for the phase never decides whether a record can be read, nor about anything in it but
    the phase. A string that is no name of a phase counts as `null`. -/
def PhaseOpen (read : Json → Decoded Experiment) : Prop :=
  (∃ cause, read .null = .error cause ∧ ∀ name, read (.str name) = .error cause) ∨
  ∃ (e : Experiment) (s : Status), read .null = .ok e ∧ e.status = some s ∧ s.phase = none ∧
    ∀ name, ∃ phase, read (.str name) = .ok { e with status := some { s with phase } } ∧
      ∀ known : Phase, phase = some known ↔ name = known.text

/-- A string for the type of the attack never decides whether a record can be read, nor about
    anything in it but the attack. Each string is written back as it is. -/
def AttackOpen (read : Json → Decoded Experiment) : Prop :=
  (∃ cause, ∀ name, read (.str name) = .error cause) ∨
  ∃ e : Experiment, ∀ name, ∃ attack, read (.str name) = .ok (e.withAttack attack) ∧
    (attack = .podKill ↔ name = "pod-kill") ∧
    (((e.withAttack attack).encode.get? "spec").bind (get? "attack")).bind (get? "type") =
      some (.str name)

/-- What is read of `null` and of strings decides whether a phase is open. -/
theorem phaseOpen_of_decodeRecorded {read : Json → Decoded Experiment}
    (hread : ∀ {x phase}, Phase.decodeRecorded x = .ok phase →
      read x = (fun e => { e with status := e.status.map fun s => { s with phase } }) <$> read .null)
    (hnull : ∀ {e}, read .null = .ok e → ∃ s, e.status = some s ∧ s.phase = none) :
    PhaseOpen read := by
  have hstr (name : String) : read (.str name) =
      (fun e => { e with status := e.status.map fun s => { s with phase := Phase.ofText? name } }) <$>
        read .null := hread rfl
  cases hbase : read .null with
  | error cause => exact .inl ⟨cause, hbase, fun name => by rw [hstr, hbase]; rfl⟩
  | ok e =>
    obtain ⟨s, hs, hphase⟩ := hnull hbase
    refine .inr ⟨e, s, hbase, hs, hphase, fun name => ⟨Phase.ofText? name, ?_,
      fun known => Phase.ofText?_eq_some_iff⟩⟩
    rw [hstr, hbase]
    show Except.ok { e with status := e.status.map _ } = _
    rw [hs]
    rfl

/-- What is read of strings decides whether an attack is open. -/
theorem attackOpen_of_decode {read : Json → Decoded Experiment}
    (hread : ∀ name, read (.str name) =
      (·.withAttack (AttackKind.ofText name)) <$> read (.str "")) : AttackOpen read := by
  cases hbase : read (.str "") with
  | error cause => exact .inl ⟨cause, fun name => by rw [hread, hbase]; rfl⟩
  | ok e =>
    refine .inr ⟨e, fun name => ⟨AttackKind.ofText name, by rw [hread, hbase]; rfl,
      AttackKind.ofText_eq_podKill_iff, ?_⟩⟩
    -- The members of the documents are found where they are written.
    show some (Json.str (AttackKind.ofText name).text) = _
    rw [AttackKind.text_ofText]

namespace Experiment

/-- The phase of a record is open, whatever stands around it. -/
theorem phaseOpen_fill (source : Source) (outer inner : Gap) :
    PhaseOpen fun x => decode source (outer.fill "status" (inner.fill "phase" x)) := by
  refine phaseOpen_of_decodeRecorded
    (fun h => decode_fill_status (Status.decode_fill_phase h)) fun h => ?_
  obtain ⟨s, hs, hstatus⟩ := status_of_decode_fill h
  exact ⟨s, hs, (Except.ok.inj (Status.phase_of_decode_fill hstatus)).symm⟩

/-- The attack of a record is open, whatever stands around it. -/
theorem attackOpen_fill (source : Source) (outer middle inner : Gap) :
    AttackOpen fun x =>
      decode source (outer.fill "spec" (middle.fill "attack" (inner.fill "type" x))) :=
  attackOpen_of_decode fun name =>
    decode_fill_attack (AttackKind.decode_fill_type source inner name "")

/-- A record whose status has no phase is read as one whose phase is `null`. -/
theorem decode_fill_close {inner : Gap} (h : inner.Lacks "phase") (source : Source) (outer : Gap) :
    decode source (outer.fill "status" inner.close) =
      decode source (outer.fill "status" (inner.fill "phase" .null)) := by
  have hstatus : Status.decode source inner.close =
      id <$> Status.decode source (inner.fill "phase" .null) := by
    rw [id_map, Status.decode_close_phase h]
  refine (decode_fill_status hstatus).trans ?_
  simp only [Option.map_id_fun, id_eq, id_map']
  rfl

/-- Setting the phase in an object in memory. -/
theorem phaseOpen_setMember (outer inner : List (String × Json)) :
    PhaseOpen fun x => decodeValue decode
      (obj (setMember "status" (obj (setMember "phase" x inner)) outer)) := by
  obtain ⟨g, -, -, hg⟩ := exists_gap_sorted "status" outer
  obtain ⟨g', -, -, hg'⟩ := exists_gap_sorted "phase" inner
  simpa only [PhaseOpen, decodeValue, hg, hg', sorted_null, sorted_str] using
    phaseOpen_fill .value g g'

/-- Setting the type of the attack in an object in memory. -/
theorem attackOpen_setMember (outer middle inner : List (String × Json)) :
    AttackOpen fun x => decodeValue decode (obj (setMember "spec"
      (obj (setMember "attack" (obj (setMember "type" x inner)) middle)) outer)) := by
  obtain ⟨g, -, -, hg⟩ := exists_gap_sorted "spec" outer
  obtain ⟨g', -, -, hg'⟩ := exists_gap_sorted "attack" middle
  obtain ⟨g'', -, -, hg''⟩ := exists_gap_sorted "type" inner
  simpa only [AttackOpen, decodeValue, hg, hg', hg'', sorted_str] using
    attackOpen_fill .value g g' g''

/-- Taking the phase out of an object in memory. -/
theorem decodeValue_removeMember (outer inner : List (String × Json)) :
    decodeValue decode (obj (setMember "status" (obj (removeMember "phase" inner)) outer)) =
      decodeValue decode
        (obj (setMember "status" (obj (setMember "phase" .null inner)) outer)) := by
  obtain ⟨g, -, -, hg⟩ := exists_gap_sorted "status" outer
  obtain ⟨g', hlacks, hclose, hg'⟩ := exists_gap_sorted "phase" inner
  simpa only [decodeValue, hg, hg', hclose, sorted_null] using decode_fill_close hlacks .value g

end Experiment

/-! ## Invocations -/

namespace Reconcile

/-- The exchanges of an invocation that read a record and does nothing but enrol it, latest first,
    and how it ends. The event is published if the write has been accepted. -/
inductive Enrolls (base : Experiment) (read : Exchange) (revisit : Revisit) :
    Trace → Ending (Except Error Revisit) → Prop
  | refused (status : Status) (cause : Error) (hphase : status.phase = some .pending)
      (hrun : status.lastRun = base.lastRun?) :
      Enrolls base read revisit [⟨.update base status, .error cause⟩, read]
        (.finished (.error cause))
  | accepted (status : Status) (updated : Experiment) (event : Event)
      (hphase : status.phase = some .pending) (hrun : status.lastRun = base.lastRun?) :
      Enrolls base read revisit
        [⟨.publish event, ()⟩, ⟨.update base status, .ok updated⟩, read]
        (.finished (.ok revisit))

/-- An experiment without a phase is enrolled, whether or not its spec is valid. -/
theorem step_of_phase?_eq_none {c : Context} {base : Experiment} (hphase : base.phase? = none)
    (hverdict : base.spec.verdict ≠ .abort) :
    step c base = do
      let _ ← enroll c base
      return .after c.settings.initRevisit := by
  have hschedule (duration : Option Duration) :
      schedule base.spec.mode duration base.status c.now = .enroll := by
    rw [Experiment.phase?] at hphase
    simp only [schedule, hphase]
  cases hv : base.spec.verdict with
  | valid duration => simp only [step, hv, hschedule]
  | invalid cause => simp only [step, hv, hschedule]
  | abort => exact absurd hv hverdict

/-- What becomes of an invocation that reads a record without a phase. -/
theorem enrolls_reconcileAt (oracle : Oracle) (settings : Settings) {trigger base : Experiment}
    (now : Instant) {ns : String} (hns : trigger.metadata.namespace = some ns)
    (hread : oracle [] (.get ns trigger.name) = .ok (some base)) (hphase : base.phase? = none) :
    let read : Exchange := ⟨.get ns trigger.name, .ok (some base)⟩
    let run := (reconcileAt settings trigger now).run.consult oracle []
    (base.spec.verdict ≠ .abort → Enrolls base read (.after settings.initRevisit) run.2 run.1) ∧
      (base.spec.verdict = .abort → run = (.aborted, [read])) := by
  intro read run
  let c : Context := ⟨settings, trigger.name, now⟩
  have hrun : run = (step c base).run.consult oracle [read] := by
    simp only [run, reconcileAt, hns]
    exact Invocation.consult_ask hread
  refine ⟨fun hverdict => ?_, fun hverdict => ?_⟩
  -- After the read there are two requests at most, and the second one depends on the first reply.
  · rw [step_of_phase?_eq_none hphase hverdict] at hrun
    let status := nextStatus base .pending .initialized "Experiment initialized and pending." now
    have hkept : status.lastRun = base.lastRun? := lastRun_nextStatus ..
    cases hreply : oracle [read] (.update base status) with
    | error cause =>
      have hrefused : run = (.finished (.error cause), [⟨.update base status, .error cause⟩, read]) :=
        hrun.trans (Invocation.consult_ask hreply)
      rw [hrefused]
      exact .refused status cause rfl hkept
    | ok updated =>
      have haccepted : run = (.finished (.ok (.after settings.initRevisit)),
          [⟨.publish _, ()⟩, ⟨.update base status, .ok updated⟩, read]) :=
        hrun.trans (Invocation.consult_ask hreply)
      rw [haccepted]
      exact .accepted status updated _ rfl hkept
  · rw [step_of_abort hverdict] at hrun
    exact hrun

end Reconcile

/-! ## The main result -/

/-- No string that stands for the phase of a status or for the type of an attack makes a record
    unreadable, in a text as in memory, whatever else the record holds. Where it is read at all, it
    is read with all strings, and they differ in the phase or in the attack alone: a phase is known
    by its name and is absent for every other string, for `null` and if it is missing; an attack is
    known by its name and keeps every other string, to be written back as it is. An invocation
    that reads a record without a phase enrols it again, keeps the time of the last attack, and
    touches no pod; but a duration that cannot be added up aborts the process before that. -/
theorem open_strings (source : Source) (outer middle inner : Gap)
    (ms ms' ms'' : List (String × Json)) (oracle : Oracle) (settings : Settings)
    (trigger base : Experiment) (now : Instant) :
    (PhaseOpen (fun x => Experiment.decode source (outer.fill "status" (inner.fill "phase" x))) ∧
      (inner.Lacks "phase" → Experiment.decode source (outer.fill "status" inner.close) =
        Experiment.decode source (outer.fill "status" (inner.fill "phase" .null)))) ∧
    (PhaseOpen (fun x => decodeValue Experiment.decode
        (obj (setMember "status" (obj (setMember "phase" x ms')) ms))) ∧
      decodeValue Experiment.decode
          (obj (setMember "status" (obj (removeMember "phase" ms')) ms)) =
        decodeValue Experiment.decode
          (obj (setMember "status" (obj (setMember "phase" .null ms')) ms))) ∧
    AttackOpen (fun x => Experiment.decode source
      (outer.fill "spec" (middle.fill "attack" (inner.fill "type" x)))) ∧
    AttackOpen (fun x => decodeValue Experiment.decode (obj (setMember "spec"
      (obj (setMember "attack" (obj (setMember "type" x ms'')) ms')) ms))) ∧
    ∀ ns, trigger.metadata.namespace = some ns →
      oracle [] (.get ns trigger.name) = .ok (some base) → base.phase? = none →
      let read : Exchange := ⟨.get ns trigger.name, .ok (some base)⟩
      let run := (reconcileAt settings trigger now).run.consult oracle []
      (base.spec.verdict ≠ .abort →
        Reconcile.Enrolls base read (.after settings.initRevisit) run.2 run.1) ∧
      (base.spec.verdict = .abort → run = (.aborted, [read])) :=
  ⟨⟨Experiment.phaseOpen_fill source outer inner,
      fun h => Experiment.decode_fill_close h source outer⟩,
    ⟨Experiment.phaseOpen_setMember ms ms', Experiment.decodeValue_removeMember ms ms'⟩,
    Experiment.attackOpen_fill source outer middle inner,
    Experiment.attackOpen_setMember ms ms' ms'',
    fun _ hns hread hphase =>
      Reconcile.enrolls_reconcileAt oracle settings now hns hread hphase⟩

/-- The members of a one-shot experiment around its status. -/
def aroundStatus (duration : String) : Gap where
  before := [("apiVersion", .str "chaos.shanto.dev/v1alpha1"), ("kind", .str "ChaosExperiment"),
    ("metadata", .obj [("name", .str "sample"), ("namespace", .str "lab"),
      ("resourceVersion", .str "1")]),
    ("spec", .obj [("attack", .obj [("type", .str "pod-kill")]), ("duration", .str duration),
      ("mode", .str "one-shot"), ("target", .obj [("labelSelector", .obj [("app", .str "web")]),
        ("namespace", .str "lab")])])]
  after := []

/-- The members of its status around the phase. -/
def aroundPhase : Gap where
  before := [("lastRunTime", .str "2026-01-01T12:00:00Z")]
  after := []

/-- An experiment that somebody has paused by hand is enrolled once more. -/
theorem open_strings_paused :
    let e := Experiment.sample .oneShot (some "5m") none (some (.sample 0))
    let read (x : Json) :=
      Experiment.decode .text ((aroundStatus "5m").fill "status" (aroundPhase.fill "phase" x))
    let run := (reconcileAt .standard e (.sample 1)).run.consult (.steady e ⟨"lab", "a"⟩) []
    PhaseOpen read ∧ read (.str "Paused") = .ok e ∧
      Reconcile.Enrolls e ⟨.get "lab" "sample", .ok (some e)⟩
        (.after Settings.standard.initRevisit) run.2 run.1 := by
  intro e read run
  have hvalid : e.spec.verdict = .valid (some ⟨300 * nanosPerSecond, by decide⟩) := by
    decide +kernel
  obtain ⟨⟨hphase, -⟩, -, -, -, henrols⟩ := open_strings .text (aroundStatus "5m") ⟨[], []⟩
    aroundPhase [] [] [] (.steady e ⟨"lab", "a"⟩) .standard e e (.sample 1)
  exact ⟨hphase, rfl, (henrols "lab" rfl rfl rfl).1 (by rw [hvalid]; nofun)⟩

/-- The same experiment with a duration that cannot be added up: its phase is not a known one, and
    no status is written. -/
theorem open_strings_aborts :
    let duration := "18446744073709551615s 1000ms"
    let e := Experiment.sample .oneShot (some duration) none (some (.sample 0))
    let run := (reconcileAt .standard e (.sample 1)).run.consult (.steady e ⟨"lab", "a"⟩) []
    Experiment.decode .value
        ((aroundStatus duration).fill "status" (aroundPhase.fill "phase" (.str "Paused"))) =
      .ok e ∧
      Phase.ofText? "Paused" = none ∧ run.1 = .aborted ∧
      ¬ ∃ status reply, (⟨.update e status, reply⟩ : Exchange) ∈ run.2 := by
  intro duration e run
  have hverdict : e.spec.verdict = .abort := by decide +kernel
  have hns : e.metadata.namespace = some "lab" := rfl
  have hread : Oracle.steady e ⟨"lab", "a"⟩ [] (.get "lab" "sample") = .ok (some e) := rfl
  have hrun : run = (.aborted, [⟨.get "lab" "sample", .ok (some e)⟩]) :=
    (Reconcile.enrolls_reconcileAt _ .standard (.sample 1) hns hread rfl).2 hverdict
  refine ⟨rfl, by decide, by rw [hrun], ?_⟩
  rw [hrun]
  rintro ⟨status, reply, hmem⟩
  cases List.mem_singleton.1 hmem

end ChaosController
