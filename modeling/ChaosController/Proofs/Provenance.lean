/-
  ChaosController.Proofs.Provenance

  Where the time of the last attack comes from.

  It is the only thing that a record remembers of past runs. An invocation sets it in one place:
  when it records that it has just killed a pod. Every kill is followed by one attempt of that
  write, and all other writes keep the time that they find. So in a run in which invocations
  follow one another the stored time is that of the last kill that was recorded, whatever else
  has failed (`lastRun_provenance`).
-/

import ChaosController.Proofs.Gate
import ChaosController.Proofs.Obligations

namespace ChaosController

/-! ## Kills and deletions -/

/-- A kill is a deletion that was answered well. -/
theorem Exchange.isKill_iff {x : Exchange} :
    x.isKill = true ↔ ∃ ns name deletion, x = ⟨.delete ns name, .ok deletion⟩ := by
  constructor
  · intro h
    obtain ⟨r, reply⟩ := x
    cases r with
    | delete ns name =>
      cases reply with
      | ok deletion => exact ⟨ns, name, deletion, rfl⟩
      | error e => cases h
    | get | list | pick | update | publish => cases h
  · rintro ⟨ns, name, deletion, rfl⟩
    rfl

namespace Trace

/-- Where no pod has been killed, no deletion has been answered well. -/
theorem kills_pos_of_strike? {t : Trace} {deletion : Deletion}
    (h : t.strike? = some (.ok deletion)) : 0 < t.kills := by
  induction t with
  | nil => cases h
  | cons x t ih =>
    rw [kills_cons]
    rw [strike?_cons] at h
    split at h
    next => cases h
    next =>
      cases hx : x.deletion? with
      | none =>
        rw [hx, Option.none_or] at h
        have hpos := ih h
        omega
      | some reply =>
        rw [hx, Option.some_or] at h
        obtain ⟨r, reply'⟩ := x
        cases r with
        | delete ns name =>
          cases hx
          cases h
          have hone : (if Exchange.isKill ⟨.delete ns name, .ok deletion⟩ then 1 else 0) = 1 := rfl
          omega
        | get | list | pick | update | publish => cases hx

/-- A kill is a deletion that no write has followed yet. -/
theorem strike?_of_struck {t : Trace} (h : t.struck = true) :
    ∃ deletion, t.strike? = some (.ok deletion) := by
  cases t with
  | nil => cases h
  | cons x t =>
    obtain ⟨ns, name, deletion, rfl⟩ := Exchange.isKill_iff.1 h
    exact ⟨deletion, rfl⟩

end Trace

namespace Reconcile

/-! ## Writes -/

/-- A kill ends the run of a one-shot experiment that has no duration; any other run goes on. -/
theorem phaseAfterKill_eq {c : Context} {read base : Experiment} (ha : Attacks c read base) :
    phaseAfterKill c read base =
      if base.spec.mode = .oneShot ∧ read.spec.duration = none then .completed else .running := by
  obtain ⟨duration, hv⟩ := ha.valid
  have hduration : read.spec.verdict.duration? = duration := by rw [hv]; rfl
  rw [phaseAfterKill, hduration]
  obtain ⟨hnone, rfl⟩ | ⟨text, d, htext, rfl, -⟩ :=
    of_checkDuration_eq_valid (Spec.of_verdict_eq_valid hv).2.2
  · cases hmode : base.spec.mode with
    | oneShot => simp [delayAfterAttack, hnone]
    | recurring => simp [delayAfterAttack]
  · simp [delayAfterAttack, htext]

/-- What a status that is written for `base` after a trace says about the last attack: that it has
    taken place at `now`, if a pod has just been killed, and what `base` says otherwise. -/
structure Dated (now : Instant) (t : Trace) (base : Experiment) (status : Status) : Prop where
  base_eq : t.base? = some base
  kept : t.struck = false → status.lastRun = base.lastRun?
  moved : t.struck = true → status.lastRun = some now ∧
    ∃ read, t.read? = some read ∧ (t.Faithful → base.spec = read.spec) ∧
      status.phase = some
        (if base.spec.mode = .oneShot ∧ read.spec.duration = none then .completed else .running)

/-- A write that comes after a kill comes right after it. -/
theorem strike?_ne_of_struck_eq_false {t : Trace} {base : Experiment} {status : Status}
    (h : Fulfils t (.update base status)) (hstruck : t.struck = false) (deletion : Deletion) :
    t.strike? ≠ some (.ok deletion) := by
  intro hstrike
  have hpos := Trace.kills_pos_of_strike? hstrike
  have hearlier := h.unrecorded rfl
  cases t with
  | nil => cases hstrike
  | cons x t =>
    have hearlier : Trace.kills t = 0 := hearlier
    rw [Trace.struck_cons] at hstruck
    rw [Trace.kills_cons, hstruck, hearlier] at hpos
    cases hpos

theorem dated_of_lawful {c : Context} {t : Trace} {base : Experiment} {status : Status}
    (hlawful : Lawful c t (.update base status)) (h : Fulfils t (.update base status)) :
    Dated c.now t base status := by
  obtain ⟨read, hstands, hwrites, -⟩ := hlawful
  refine ⟨hstands.base_eq, fun hstruck => ?_, fun hstruck => ?_⟩
  · have hunkilled := strike?_ne_of_struck_eq_false h hstruck
    rw [hwrites.lastRun]
    match t.strike?, hunkilled with
    | none, _ => rfl
    | some (.error e), _ => rfl
    | some (.ok deletion), hunkilled => exact absurd rfl (hunkilled deletion)
  · obtain ⟨deletion, hstrike⟩ := Trace.strike?_of_struck hstruck
    rw [hstrike] at hwrites
    cases hwrites with
    | missed reason message ha hs => exact absurd rfl (hs deletion)
    | killed deletion reason message ha =>
      refine ⟨rfl, read, hstands.read_eq, fun ht => (hstands.stems ht).1, ?_⟩
      rw [Status.phase_recordRun, phase_nextStatus, phaseAfterKill_eq ha]

/-! ## What follows a kill -/

variable {settings : Settings} {trigger : Experiment} {now : Instant} {t : Trace}

/-- Whatever an invocation is told, every status that it writes is dated. -/
theorem dated_of_reaches {base : Experiment} {status : Status}
    {resume : Except Error Experiment → Invocation (Except Error Revisit)}
    (h : (reconcileAt settings trigger now).run.Reaches t (.ask (.update base status) resume)) :
    Dated now t base status :=
  dated_of_lawful (lawful_of_reaches h) (fulfils_of_reaches h)

/-- After the write that follows a kill no status is written. -/
theorem writes_after_kill {rest : Invocation (Except Error Revisit)} {after earlier : Trace}
    {x y : Exchange}
    (h : (reconcileAt settings trigger now).run.Reaches (after ++ y :: x :: earlier) rest)
    (hx : x.isKill = true) : Trace.writes after = 0 := by
  refine List.countP_eq_zero.2 fun z hz hwrite => ?_
  obtain ⟨later, between, rfl⟩ := List.append_of_mem hz
  rw [List.append_assoc, List.cons_append] at h
  have hfulfils := (dutiful_reconcileAt settings trigger now).asked h rfl
  obtain ⟨r, reply⟩ := z
  cases r with
  | update base status =>
    -- The kill is further back, whatever lies between.
    have hmem : x ∈ (between ++ y :: x :: earlier).tail := by
      cases between <;> simp
    have hpos : 0 < Trace.kills (between ++ y :: x :: earlier).tail :=
      List.countP_pos_iff.2 ⟨x, hmem, hx⟩
    have hnone := hfulfils.unrecorded rfl
    exact absurd hnone (Nat.ne_of_gt hpos)
  | get | list | pick | delete | publish => cases hwrite

/-- Every kill is followed by one write, which is asked for at once. -/
theorem write_after_kill {rest : Invocation (Except Error Revisit)} {later earlier : Trace}
    {x : Exchange}
    (h : (reconcileAt settings trigger now).run.Reaches (later ++ x :: earlier) rest)
    (hx : x.isKill = true) :
    (later = [] ∧ ∃ base status resume, rest = .ask (.update base status) resume) ∨
      ∃ base status reply after, later = after ++ [⟨.update base status, reply⟩] ∧
        Dated now (x :: earlier) base status ∧ Trace.writes after = 0 := by
  have hdue : Trace.due (x :: earlier) = .record := by
    obtain ⟨ns, name, deletion, rfl⟩ := Exchange.isKill_iff.1 hx
    rfl
  obtain rfl | ⟨after, y, rfl⟩ := later.eq_nil_or_concat'
  · -- Nothing has been asked since, and the invocation is not over.
    rw [List.nil_append] at h
    obtain ⟨r, resume, rfl, hfulfils⟩ := exists_ask_of_due h (by rw [hdue]; decide)
    have hallowed := hfulfils.allowed
    rw [hdue] at hallowed
    cases r with
    | update base status => exact .inl ⟨rfl, base, status, resume, rfl⟩
    | get | list | pick | delete | publish => exact hallowed.elim
  · rw [List.append_assoc, List.singleton_append] at h
    have hnext := (dutiful_reconcileAt settings trigger now).asked h rfl
    have hlawful := (abides_reconcileAt settings trigger now).asked h rfl
    have hallowed := hnext.allowed
    rw [hdue] at hallowed
    obtain ⟨r, reply⟩ := y
    cases r with
    | update base status =>
      exact .inr ⟨base, status, reply, after, rfl, dated_of_lawful hlawful hnext,
        writes_after_kill h hx⟩
    | get | list | pick | delete | publish => exact hallowed.elim

end Reconcile

/-! ## Runs in which invocations follow one another -/

namespace World

/-- The worlds to which invocations lead that are taken one after another: only the last one that
    has begun gets replies, and what it reads is the current record. -/
inductive Sequential (env : Environment) (e : Experiment) : World → Prop
  | initial : Sequential env e (initial e)
  | launch {w : World} (settings : Settings) (trigger : Experiment) (now : Instant)
      (hw : Sequential env e w) :
      Sequential env e ⟨w.store, .begin settings trigger now :: w.visits⟩
  | edit {w : World} {edited : Experiment} {version : String} (hw : Sequential env e w)
      (he : env.edits w.store.current.record edited) (hv : env.issues w.store version) :
      Sequential env e ⟨w.store.put ⟨edited.versioned version, none⟩, w.visits⟩
  | reply {s after : Store} {v : Visit} {before : List Visit} {r : Request}
      {resume : r.Reply → Invocation (Except Error Revisit)} (reply : r.Reply)
      (hw : Sequential env e ⟨s, v :: before⟩) (hr : v.rest = .ask r resume)
      (ha : s.Answers env v r reply after)
      (hread : ∀ read, Exchange.fetched? ⟨r, reply⟩ = some read → read = s.current.record) :
      Sequential env e ⟨after, v.answered hr reply :: before⟩

/-- Only a read has to give the current record. -/
theorem Sequential.answer {env : Environment} {e : Experiment} {s after : Store} {v : Visit}
    {before : List Visit} (hw : Sequential env e ⟨s, v :: before⟩) (r : Request) (reply : r.Reply)
    {resume : r.Reply → Invocation (Except Error Revisit)} (hr : v.rest = .ask r resume)
    (ha : s.Answers env v r reply after) (hnone : Exchange.fetched? ⟨r, reply⟩ = none) :
    Sequential env e ⟨after, v.answered hr reply :: before⟩ := by
  refine hw.reply reply hr ha fun read hread => ?_
  rw [hnone] at hread
  cases hread

/-- What a run keeps that begins with `e`: the time of the last attack is that of the last kill
    recorded, and the last invocation knows it unless a write has failed. -/
structure Remembers (e : Experiment) (w : World) : Prop where
  stored : w.store.current.record.lastRun? = (lastKill? w.store.revisions).or e.lastRun?
  known : ∀ v before, w.visits = v :: before → v.trace.failedWrites = 0 →
    ∀ base, v.trace.base? = some base → base.lastRun? = w.store.current.record.lastRun?

variable {env : Environment} {e : Experiment}

theorem stored_put {s : Store} (h : s.current.record.lastRun? =
    (lastKill? s.revisions).or e.lastRun?) (rev : Revision)
    (hrev : rev.record.lastRun? = rev.kill?.or s.current.record.lastRun?) :
    (s.put rev).current.record.lastRun? = (lastKill? (s.put rev).revisions).or e.lastRun? := by
  rw [Store.current_put, Store.revisions_put, lastKill?_cons, hrev, h, Option.or_assoc]

section Reply

variable {s : Store} {v : Visit} {before : List Visit} {r : Request}
  {resume : r.Reply → Invocation (Except Error Revisit)} {reply : r.Reply}

/-- A reply that hands over no record leaves things as they are. -/
theorem Remembers.other (h : Remembers e ⟨s, v :: before⟩) (hr : v.rest = .ask r resume)
    (hrecord : Exchange.record? ⟨r, reply⟩ = none) :
    Remembers e ⟨s, v.answered hr reply :: before⟩ := by
  refine ⟨h.stored, fun u older hu hfailed base hbase => ?_⟩
  obtain ⟨rfl, rfl⟩ := List.cons.inj hu
  rw [Visit.trace_answered, Trace.failedWrites_cons] at hfailed
  rw [Visit.trace_answered, Trace.base?_cons, hrecord, Option.none_or] at hbase
  exact h.known v before rfl (by omega) base hbase

/-- What has been read or written last is the current record. -/
theorem Remembers.renewed {current : Experiment} (hr : v.rest = .ask r resume)
    (hrecord : Exchange.record? ⟨r, reply⟩ = some current)
    (hcurrent : s.current.record = current)
    (hstored : s.current.record.lastRun? = (lastKill? s.revisions).or e.lastRun?) :
    Remembers e ⟨s, v.answered hr reply :: before⟩ := by
  refine ⟨hstored, fun u older hu hfailed base hbase => ?_⟩
  obtain ⟨rfl, rfl⟩ := List.cons.inj hu
  rw [Visit.trace_answered, Trace.base?_cons, hrecord, Option.some_or] at hbase
  rw [← Option.some.inj hbase, hcurrent]

/-- After a write that has failed nothing is known. -/
theorem Remembers.failed (hr : v.rest = .ask r resume)
    (hfailed : Exchange.isFailedWrite ⟨r, reply⟩ = true)
    (hstored : s.current.record.lastRun? = (lastKill? s.revisions).or e.lastRun?) :
    Remembers e ⟨s, v.answered hr reply :: before⟩ := by
  refine ⟨hstored, fun u older hu hnone base hbase => ?_⟩
  obtain ⟨rfl, rfl⟩ := List.cons.inj hu
  rw [Visit.trace_answered, Trace.failedWrites_cons, if_pos hfailed] at hnone
  omega

/-- A reply keeps the memory. -/
theorem Remembers.answered {after : Store} (h : Remembers e ⟨s, v :: before⟩)
    (hr : v.rest = .ask r resume) (ha : s.Answers env v r reply after)
    (hread : ∀ read, Exchange.fetched? ⟨r, reply⟩ = some read → read = s.current.record) :
    Remembers e ⟨after, v.answered hr reply :: before⟩ := by
  cases r with
  | get ns name =>
    obtain ⟨rfl, -⟩ := ha
    match reply with
    | .ok (some read) => exact .renewed hr rfl (hread read rfl).symm h.stored
    | .ok none => exact h.other hr rfl
    | .error e => exact h.other hr rfl
  | list | pick | delete | publish =>
    obtain rfl : after = s := ha
    exact h.other hr rfl
  | update base status =>
    obtain ⟨read, hstands, hwrites, -⟩ := v.lawful hr
    have hknown : base.lastRun? = s.current.record.lastRun? :=
      h.known v before rfl hstands.unfailed base hstands.base_eq
    obtain ⟨⟨e, rfl⟩, rfl⟩ | ⟨version, -, rfl, hreply⟩ := ha
    · exact .failed hr rfl h.stored
    · by_cases hversion : s.current.record.version? = base.version?
      · rw [Store.write_of_version hversion] at hreply ⊢
        have hwritten : (s.current.record.stamped status version).lastRun? =
            v.kill?.or s.current.record.lastRun? := by
          rw [Experiment.lastRun?_stamped, hwrites.lastRun, hknown]
          rfl
        have hstored := stored_put h.stored
          ⟨s.current.record.stamped status version, some v⟩ hwritten
        obtain rfl | ⟨e, rfl⟩ := hreply
        · exact .renewed hr rfl rfl hstored
        · exact .failed hr rfl hstored
      · rw [Store.write_of_stale hversion] at hreply ⊢
        obtain rfl | ⟨e, rfl⟩ := hreply
        · exact .failed hr rfl h.stored
        · exact .failed hr rfl h.stored

end Reply

/-- In a run in which invocations follow one another the time of the last attack is that of the
    last kill that was recorded. -/
theorem Sequential.remembers (hedits : env.KeepsLastRun) {w : World}
    (hw : Sequential env e w) : Remembers e w := by
  induction hw with
  | initial => exact ⟨rfl, fun v before hv => nomatch hv⟩
  | launch settings trigger now hw ih =>
    refine ⟨ih.stored, fun v before hv _ base hbase => ?_⟩
    obtain ⟨rfl, -⟩ := List.cons.inj hv
    cases hbase
  | @edit w edited version hw he hv ih =>
    have hkept : (edited.versioned version).lastRun? = w.store.current.record.lastRun? :=
      hedits _ edited he
    refine ⟨stored_put ih.stored _ hkept, fun v before hv hfailed base hbase => ?_⟩
    rw [ih.known v before hv hfailed base hbase]
    exact hkept.symm
  | reply reply hw hr ha hread ih => exact ih.answered hr ha hread

end World

/-! ## The main result -/

/-- Where the time of the last attack comes from, whatever an invocation is told. Every status
    that it writes has the time of the record that it is written for, except for the write right
    after a kill: that one has the time of the invocation, and the run goes on unless it is a
    one-shot run without a duration. Every kill is followed by one attempt of that write. So in a
    run in which invocations follow one another, and other writers leave the time alone, the
    stored time is that of the last kill that was recorded, or else the one at the beginning. -/
theorem lastRun_provenance :
    (∀ (settings : Settings) (trigger : Experiment) (now : Instant) (t : Trace)
      (base : Experiment) (status : Status)
      (resume : Except Error Experiment → Invocation (Except Error Revisit)),
      (reconcileAt settings trigger now).run.Reaches t (.ask (.update base status) resume) →
      Reconcile.Dated now t base status) ∧
    (∀ (settings : Settings) (trigger : Experiment) (now : Instant) (later earlier : Trace)
      (x : Exchange) (rest : Invocation (Except Error Revisit)),
      (reconcileAt settings trigger now).run.Reaches (later ++ x :: earlier) rest →
      x.isKill = true →
      (later = [] ∧ ∃ base status resume, rest = .ask (.update base status) resume) ∨
        ∃ base status reply after, later = after ++ [⟨.update base status, reply⟩] ∧
          Reconcile.Dated now (x :: earlier) base status ∧ Trace.writes after = 0) ∧
    ∀ (env : Environment) (e : Experiment) (w : World), env.KeepsLastRun →
      World.Sequential env e w →
      w.store.current.record.lastRun? = (lastKill? w.store.revisions).or e.lastRun? := by
  refine ⟨?_, ?_, ?_⟩
  · intro settings trigger now t base status resume h
    exact Reconcile.dated_of_reaches h
  · intro settings trigger now later earlier x rest h hx
    exact Reconcile.write_after_kill h hx
  · intro env e w hedits hw
    exact (hw.remembers hedits).stored

/-- Two invocations, of which the second fails to delete its pod and says so: the record keeps
    the time of the first. -/
theorem lastRun_provenance_failure :
    let e := Experiment.sample .recurring none (some .pending) (some (.sample 0))
    ∃ w v u later earlier x, World.Sequential (.fresh fun _ _ => False) e w ∧
      w.visits = [v, u] ∧ u.now = .sample 5 ∧ u.trace = later ++ x :: earlier ∧
      x.isKill = true ∧ (∃ base status reply, ⟨.update base status, reply⟩ ∈ later ∧
        Reconcile.Dated u.now (x :: earlier) base status) ∧
      v.now = .sample 7 ∧ v.trace.deletions = 1 ∧
      (∃ base status reply t, v.trace = ⟨.update base status, reply⟩ :: t ∧
        Trace.struck t = false ∧ Reconcile.Dated v.now t base status) ∧
      w.store.revisions.length = 3 ∧ w.store.current.record.lastRun? = some (.sample 5) := by
  intro e
  have hverdict : e.spec.verdict = .valid none := by decide
  have hattack : e.spec.attack.attack? = some .podKill := rfl
  have hfirst : Reconcile.step ⟨.standard, "sample", .sample 5⟩ e = _ :=
    Reconcile.step_of_acts (d := .attack) hverdict hattack (by decide) rfl
  have hsecond (status : Status) (hphase : status.phase = some .running)
      (hrun : status.lastRun = some (.sample 5)) :
      Reconcile.step ⟨.standard, "sample", .sample 7⟩ (e.stamped status "2") =
        Reconcile.act ⟨.standard, "sample", .sample 7⟩ (e.stamped status "2") .attack .podKill
          none := by
    refine Reconcile.step_of_acts hverdict hattack ?_ rfl
    show schedule .recurring e.spec.verdict.duration? (some status) (.sample 7) = .attack
    rw [hverdict]
    simp [schedule, scheduleActive, Phase.isFinished, hphase, hrun, Verdict.duration?]
  have h : World.Sequential (.fresh fun _ _ => False) e _ := .initial
  have h := h.launch .standard (.sample .recurring none none none) (.sample 5)
  have h := h.reply (r := .get "lab" "sample") (.ok (some e)) rfl
    (Store.answers_get_current ..) fun read hread => (Option.some.inj hread).symm
  have h := h.answer (.list "lab" _) (.ok [⟨"lab", "a"⟩])
    ((Visit.rest_answered_get rfl rfl).trans ((congrArg ExceptT.run hfirst).trans rfl)) rfl rfl
  have h := h.answer (.pick 1) (0 : Nat) rfl rfl rfl
  have h := h.answer (.delete "lab" "a") (.ok .deleted) rfl rfl rfl
  have h := h.answer (.update _ _) _ rfl (Store.answers_accepted "2" (by simp [e]) rfl) rfl
  have h := h.answer (.publish _) () rfl rfl rfl
  have h := h.launch .standard (.sample .recurring none none none) (.sample 7)
  have h := h.reply (r := .get "lab" "sample") (.ok (some _)) rfl
    (Store.answers_get_current ..) fun read hread => (Option.some.inj hread).symm
  have h := h.answer (.list "lab" _) (.ok [⟨"lab", "b"⟩])
    ((Visit.rest_answered_get rfl rfl).trans
      ((congrArg ExceptT.run (hsecond _ rfl rfl)).trans rfl)) rfl rfl
  have h := h.answer (.pick 1) (0 : Nat) rfl rfl rfl
  have h := h.answer (.delete "lab" "b") (.error (.conflict "b")) rfl rfl rfl
  have h := h.answer (.update _ _) _ rfl (Store.answers_accepted "3" (by simp [e]) rfl) rfl
  have hedits : (Environment.fresh fun _ _ => False).KeepsLastRun := fun _ _ hedit => hedit.elim
  have hstored := lastRun_provenance.2.2 _ _ _ hedits h
  have hmoved (u : Visit) (later earlier : Trace) (x : Exchange)
      (hu : u.trace = later ++ x :: earlier) (hx : x.isKill = true) (hne : later ≠ []) :
      ∃ base status reply, ⟨.update base status, reply⟩ ∈ later ∧
        Reconcile.Dated u.now (x :: earlier) base status := by
    obtain ⟨hnil, -⟩ | ⟨base, status, reply, after, rfl, hdated, -⟩ :=
      lastRun_provenance.2.1 _ _ _ _ _ _ _ (hu ▸ u.reaches) hx
    · exact absurd hnil hne
    · exact ⟨base, status, reply, by simp, hdated⟩
  have hkept (v : Visit) (base : Experiment) (status : Status) (reply : Except Error Experiment)
      (t : Trace) (hv : v.trace = ⟨.update base status, reply⟩ :: t) :
      Reconcile.Dated v.now t base status := by
    obtain ⟨resume, hasked⟩ := Invocation.Reaches.asked (hv ▸ v.reaches)
    exact lastRun_provenance.1 _ _ _ _ _ _ _ hasked
  refine ⟨_, _, _, [_, _], _, _, h, rfl, rfl, rfl, rfl, ?_, rfl, rfl, ?_, rfl, hstored.trans rfl⟩
  · exact hmoved _ _ _ _ rfl rfl (by simp)
  · exact ⟨_, _, _, _, rfl, rfl, hkept _ _ _ _ _ rfl⟩

end ChaosController
