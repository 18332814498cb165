/-
  ChaosController.Proofs.Overlap

  Invocations that overlap, and a store that they share with other writers.

  The store keeps every record that it has held. It takes a status only for the version that is
  current. Visits are invocations in progress: any number of them take turns call by call, each
  call may fail, and a read may give any record of the past. A visit that gets no further turn
  has been cut off, whether or not its last reply has come to it. What the store and the other
  writers may do besides is an `Environment`.

  `World.Sound` is what every run keeps if no version is used twice. Its main consequence is
  `World.Sound.current_eq`: a status is written only over the record that it was made for.
-/

import ChaosController.Cluster
import ChaosController.Proofs.Conduct
import Mathlib.Data.List.Chain

namespace ChaosController

/-! ## Visits -/

/-- An invocation in progress. -/
structure Visit where
  settings : Settings
  trigger : Experiment
  now : Instant
  /-- What it has asked and been told. -/
  trace : Trace
  /-- What is left of it. -/
  rest : Invocation (Except Error Revisit)
  reaches : (reconcileAt settings trigger now).run.Reaches trace rest

namespace Visit

/-- A visit that has asked nothing yet. -/
def begin (settings : Settings) (trigger : Experiment) (now : Instant) : Visit :=
  ⟨settings, trigger, now, [], _, .start⟩

/-- A visit whose request has been answered. -/
def answered (v : Visit) {r : Request} {resume : r.Reply → Invocation (Except Error Revisit)}
    (h : v.rest = .ask r resume) (reply : r.Reply) : Visit where
  settings := v.settings
  trigger := v.trigger
  now := v.now
  trace := ⟨r, reply⟩ :: v.trace
  rest := resume reply
  reaches := .exchange reply (h ▸ v.reaches)

@[simp] theorem trace_begin (settings : Settings) (trigger : Experiment) (now : Instant) :
    (begin settings trigger now).trace = [] := rfl

@[simp] theorem trace_answered (v : Visit) {r : Request}
    {resume : r.Reply → Invocation (Except Error Revisit)} (h : v.rest = .ask r resume)
    (reply : r.Reply) : (v.answered h reply).trace = ⟨r, reply⟩ :: v.trace := rfl

/-- A visit that has just read a record takes the step of the record. -/
theorem rest_answered_get {settings : Settings} {trigger read : Experiment} {now : Instant}
    {ns : String} (hns : trigger.metadata.namespace = some ns)
    {resume : Except Error (Option Experiment) → Invocation (Except Error Revisit)}
    (h : (begin settings trigger now).rest = .ask (.get ns trigger.name) resume) :
    ((begin settings trigger now).answered h (.ok (some read))).rest =
      (Reconcile.step ⟨settings, trigger.name, now⟩ read).run := by
  have hresume := h
  simp only [begin, reconcileAt, hns] at hresume
  obtain ⟨-, hresume⟩ := Invocation.ask.inj hresume
  show resume (.ok (some read)) = _
  rw [← eq_of_heq hresume]
  rfl

/-- What is constant in a visit. -/
def context (v : Visit) : Reconcile.Context := ⟨v.settings, v.trigger.name, v.now⟩

/-- The time of a kill that the visit has not yet recorded. -/
def kill? (v : Visit) : Option Instant := Reconcile.killTime v.now v.trace.strike?

/-- What a visit asks for next is lawful. -/
theorem lawful (v : Visit) {r : Request} {resume : r.Reply → Invocation (Except Error Revisit)}
    (h : v.rest = .ask r resume) : Reconcile.Lawful v.context v.trace r :=
  Reconcile.lawful_of_reaches (h ▸ v.reaches)

end Visit

/-! ## The store -/

/-- A record that the store has held. -/
structure Revision where
  record : Experiment
  /-- The visit that wrote the status, as it was when it asked for the write; none for any
      other writer. -/
  author : Option Visit

/-- A store of one experiment. -/
structure Store where
  current : Revision
  /-- What was stored before, the latest first. -/
  past : List Revision

namespace Store

/-- All that has been stored, the latest first. -/
def revisions (s : Store) : List Revision := s.current :: s.past

/-- A record is stored now or was stored before. -/
def Held (s : Store) (e : Experiment) : Prop := ∃ rev ∈ s.revisions, rev.record = e

/-- A version that has not been used. -/
def Unused (s : Store) (version : String) : Prop :=
  ∀ rev ∈ s.revisions, rev.record.version? ≠ some version

/-- Stores a new record. -/
def put (s : Store) (rev : Revision) : Store := ⟨rev, s.revisions⟩

/-- Takes a status for the current version under a new version, and refuses it for any
    other. -/
def write (s : Store) (author : Visit) (base : Experiment) (status : Status)
    (version : String) : Except Error Experiment × Store :=
  if s.current.record.version? = base.version? then
    (.ok (s.current.record.stamped status version),
      s.put ⟨s.current.record.stamped status version, some author⟩)
  else (.error (.conflict base.name), s)

@[simp] theorem revisions_put (s : Store) (rev : Revision) :
    (s.put rev).revisions = rev :: s.revisions := rfl

@[simp] theorem unused_put {s : Store} {rev : Revision} {version : String} :
    (s.put rev).Unused version ↔ rev.record.version? ≠ some version ∧ s.Unused version :=
  List.forall_mem_cons

@[simp] theorem current_put (s : Store) (rev : Revision) : (s.put rev).current = rev := rfl

theorem held_current (s : Store) : s.Held s.current.record :=
  ⟨s.current, List.mem_cons_self, rfl⟩

theorem Held.put {s : Store} {e : Experiment} (h : s.Held e) (rev : Revision) :
    (s.put rev).Held e := by
  obtain ⟨held, hmem, he⟩ := h
  exact ⟨held, List.mem_cons_of_mem _ hmem, he⟩

theorem held_put (s : Store) (rev : Revision) : (s.put rev).Held rev.record :=
  (s.put rev).held_current

theorem write_of_version {s : Store} {author : Visit} {base : Experiment} {status : Status}
    {version : String} (h : s.current.record.version? = base.version?) :
    s.write author base status version =
      (.ok (s.current.record.stamped status version),
        s.put ⟨s.current.record.stamped status version, some author⟩) := if_pos h

theorem write_of_stale {s : Store} {author : Visit} {base : Experiment} {status : Status}
    {version : String} (h : s.current.record.version? ≠ base.version?) :
    s.write author base status version = (.error (.conflict base.name), s) := if_neg h

end Store

/-- What a store and its other writers may do. -/
structure Environment where
  /-- The versions that the store may give to its next record. -/
  issues : Store → String → Prop
  /-- The records into which other writers may change a record. -/
  edits : Experiment → Experiment → Prop

/-- The replies that a visit may get from a store, and the store after them. Any call may fail; a
    status write that fails may have taken effect all the same. -/
def Store.Answers (env : Environment) (s : Store) (v : Visit) :
    (r : Request) → r.Reply → Store → Prop
  | .get _ _, reply, after => after = s ∧ ∀ e, reply = .ok (some e) → s.Held e
  | .update base status, reply, after =>
    (∃ e, reply = .error e) ∧ after = s ∨
      ∃ version, env.issues s version ∧ after = (s.write v base status version).2 ∧
        (reply = (s.write v base status version).1 ∨ ∃ e, reply = .error e)
  | .list _ _, _, after | .pick _, _, after | .delete _ _, _, after | .publish _, _, after =>
    after = s

/-- A read may give the current record. -/
theorem Store.answers_get_current (env : Environment) (s : Store) (v : Visit)
    («namespace» name : String) :
    s.Answers env v (.get «namespace» name) (.ok (some s.current.record)) s := by
  refine ⟨rfl, fun e he => ?_⟩
  cases he
  exact s.held_current

/-- The store may take a status for its current version. -/
theorem Store.answers_accepted {env : Environment} {s : Store} {v : Visit} {base : Experiment}
    {status : Status} (version : String) (hv : env.issues s version)
    (hb : s.current.record.version? = base.version?) :
    s.Answers env v (.update base status) (.ok (s.current.record.stamped status version))
      (s.put ⟨s.current.record.stamped status version, some v⟩) :=
  .inr ⟨version, hv, by rw [Store.write_of_version hb], .inl (by rw [Store.write_of_version hb])⟩

/-- The environment that gives out any version that is new. -/
def Environment.fresh (edits : Experiment → Experiment → Prop) : Environment where
  issues := Store.Unused
  edits := edits

@[simp] theorem Environment.issues_fresh (edits : Experiment → Experiment → Prop) :
    (fresh edits).issues = Store.Unused := rfl

/-! ## Runs -/

/-- A store and the visits to it, also those that are over. -/
structure World where
  store : Store
  visits : List Visit

namespace World

/-- A world with a record that nobody has looked at. -/
def initial (e : Experiment) : World := ⟨⟨⟨e, none⟩, []⟩, []⟩

@[simp] theorem unused_initial {e : Experiment} {version : String} :
    (initial e).store.Unused version ↔ e.version? ≠ some version := by
  simp [initial, Store.Unused, Store.revisions]

/-- What may happen next: a visit begins, another writer changes the record, or a visit gets a
    reply. -/
inductive Step (env : Environment) (w : World) : World → Prop
  | launch (settings : Settings) (trigger : Experiment) (now : Instant) :
      Step env w ⟨w.store, .begin settings trigger now :: w.visits⟩
  | edit {e : Experiment} {version : String} (he : env.edits w.store.current.record e)
      (hv : env.issues w.store version) :
      Step env w ⟨w.store.put ⟨e.versioned version, none⟩, w.visits⟩
  | reply {earlier later : List Visit} {v : Visit} {r : Request}
      {resume : r.Reply → Invocation (Except Error Revisit)} {reply : r.Reply} {after : Store}
      (hv : w.visits = earlier ++ v :: later) (hr : v.rest = .ask r resume)
      (ha : w.store.Answers env v r reply after) :
      Step env w ⟨after, earlier ++ v.answered hr reply :: later⟩

/-- The worlds that a run may come to. -/
inductive Reachable (env : Environment) (e : Experiment) : World → Prop
  | initial : Reachable env e (initial e)
  | step {w w' : World} : Reachable env e w → Step env w w' → Reachable env e w'

/-- A step leaves the store as it is, or it stores a record under a version that was issued. -/
theorem Step.store_cases {env : Environment} {w w' : World} (h : Step env w w') :
    w'.store = w.store ∨ ∃ rev version, env.issues w.store version ∧
      rev.record.version? = some version ∧ w'.store = w.store.put rev := by
  cases h with
  | launch => exact .inl rfl
  | @edit e version he hv => exact .inr ⟨_, version, hv, rfl, rfl⟩
  | @reply earlier later v r resume reply after hv hr ha =>
    cases r with
    | get => exact .inl ha.1
    | list | pick | delete | publish => exact .inl ha
    | update base status =>
      obtain ⟨-, rfl⟩ | ⟨version, hissued, rfl, -⟩ := ha
      · exact .inl rfl
      · by_cases hversion : w.store.current.record.version? = base.version?
        · exact .inr ⟨_, version, hissued, rfl, by rw [Store.write_of_version hversion]⟩
        · exact .inl (by rw [Store.write_of_stale hversion])

/-- The first revision is the record that a run begins with. -/
theorem Reachable.getLast?_revisions {env : Environment} {e : Experiment} {w : World}
    (h : Reachable env e w) : w.store.revisions.getLast? = some ⟨e, none⟩ := by
  induction h with
  | initial => rfl
  | step hw hs ih =>
    obtain hstore | ⟨rev, version, -, -, hstore⟩ := hs.store_cases
    · rw [hstore]
      exact ih
    · rw [hstore, Store.revisions_put, List.getLast?_cons, ih]
      rfl

/-- A visit gets a reply; the visits in `earlier` have begun after it. -/
theorem Reachable.answer {env : Environment} {e : Experiment} {s after : Store} {v : Visit}
    {later : List Visit} (earlier : List Visit)
    (h : Reachable env e ⟨s, earlier ++ v :: later⟩) (r : Request) (reply : r.Reply)
    {resume : r.Reply → Invocation (Except Error Revisit)} (hr : v.rest = .ask r resume)
    (ha : s.Answers env v r reply after) :
    Reachable env e ⟨after, earlier ++ v.answered hr reply :: later⟩ :=
  h.step (.reply rfl hr ha)

end World

/-- In no run is a version used twice. -/
def Environment.NeverReuses (env : Environment) (e : Experiment) : Prop :=
  ∀ w, World.Reachable env e w → ∀ version, env.issues w.store version → w.store.Unused version

theorem Environment.fresh_neverReuses (edits : Experiment → Experiment → Prop)
    (e : Experiment) : (fresh edits).NeverReuses e := fun _ _ _ hv => hv

/-! ## What every run keeps -/

/-- How a revision comes to follow another one: by a change of another writer, or by a status
    that a visit has made for exactly the record before. -/
inductive Revision.Succeeds (env : Environment) (older : Revision) : Revision → Prop
  | edited {e : Experiment} (version : String) (he : env.edits older.record e) :
      Succeeds env older ⟨e.versioned version, none⟩
  | written {v : Visit} {status : Status}
      {resume : Except Error Experiment → Invocation (Except Error Revisit)} (version : String)
      (hr : v.rest = .ask (.update older.record status) resume) (hf : v.trace.Faithful) :
      Succeeds env older ⟨older.record.stamped status version, some v⟩

namespace World

/-- What every run keeps in which no version is used twice. -/
structure Sound (env : Environment) (w : World) : Prop where
  versions : w.store.revisions.Pairwise fun a b => a.record.version? ≠ b.record.version?
  held : ∀ v ∈ w.visits, ∀ x ∈ v.trace, ∀ e, x.record? = some e → w.store.Held e
  faithful : ∀ v ∈ w.visits, v.trace.Faithful
  succession : w.store.revisions.IsChain fun newer older => older.Succeeds env newer

namespace Sound

variable {env : Environment} {w : World}

theorem initial (e : Experiment) : (World.initial e).Sound env where
  versions := List.pairwise_singleton _ _
  held := by simp [World.initial]
  faithful := by simp [World.initial]
  succession := List.isChain_singleton _

/-- Of all records that have been stored, only the current one has its version. -/
theorem eq_of_version (h : w.Sound env) {e : Experiment} (he : w.store.Held e)
    (hv : w.store.current.record.version? = e.version?) : w.store.current.record = e := by
  obtain ⟨rev, hmem, rfl⟩ := he
  cases hmem with
  | head => rfl
  | tail _ hpast => exact absurd hv ((List.pairwise_cons.1 h.versions).1 rev hpast)

/-- The record that a visit goes by has been stored. -/
theorem held_base (h : w.Sound env) {v : Visit} (hv : v ∈ w.visits) {base : Experiment}
    (hb : v.trace.base? = some base) : w.store.Held base := by
  obtain ⟨x, hx, he⟩ := List.exists_of_findSome?_eq_some hb
  exact h.held v hv x hx base he

/-- The record that a visit has read has been stored. -/
theorem held_read (h : w.Sound env) {v : Visit} (hv : v ∈ w.visits) {read : Experiment}
    (hread : v.trace.read? = some read) : w.store.Held read := by
  obtain ⟨x, hx, he⟩ := List.exists_of_findSome?_eq_some hread
  exact h.held v hv x hx read (Exchange.record?_of_fetched? he)

/-- A visit writes only over the record that it goes by: the version says so. -/
theorem current_eq (h : w.Sound env) {v : Visit} (hv : v ∈ w.visits) {base : Experiment}
    {status : Status} {resume : Except Error Experiment → Invocation (Except Error Revisit)}
    (hr : v.rest = .ask (.update base status) resume)
    (hversion : w.store.current.record.version? = base.version?) :
    w.store.current.record = base := by
  obtain ⟨read, hstands, -⟩ := v.lawful hr
  exact h.eq_of_version (h.held_base hv hstands.base_eq) hversion

end Sound

/-- What one reply does in a sound run. -/
inductive Effect (env : Environment) (s : Store) (v : Visit) : Exchange → Store → Prop
  | other {x : Exchange} (hw : x.isWrite = false) (hheld : ∀ e, x.record? = some e → s.Held e) :
      Effect env s v x s
  | failed (base : Experiment) (status : Status) (e : Error) :
      Effect env s v ⟨.update base status, .error e⟩ s
  | accepted {status : Status} {version : String} {reply : Except Error Experiment}
      (hv : env.issues s version)
      (hreply : reply = .ok (s.current.record.stamped status version) ∨ ∃ e, reply = .error e) :
      Effect env s v ⟨.update s.current.record status, reply⟩
        (s.put ⟨s.current.record.stamped status version, some v⟩)

variable {env : Environment} {w : World}

/-- A status write fails, or it is accepted for the current record. -/
theorem Sound.effect (h : w.Sound env) {v : Visit} (hv : v ∈ w.visits) {r : Request}
    {resume : r.Reply → Invocation (Except Error Revisit)} (hr : v.rest = .ask r resume)
    {reply : r.Reply} {after : Store} (ha : w.store.Answers env v r reply after) :
    Effect env w.store v ⟨r, reply⟩ after := by
  cases r with
  | get ns name =>
    obtain ⟨rfl, hheld⟩ := ha
    refine .other rfl fun e he => hheld e ?_
    match reply, he with
    | .ok record, he => exact congrArg Except.ok he
  | list | pick | delete | publish =>
    obtain rfl : after = w.store := ha
    exact .other rfl fun e he => by simp [Exchange.record?] at he
  | update base status =>
    obtain ⟨⟨e, rfl⟩, rfl⟩ | ⟨version, hissued, rfl, hreply⟩ := ha
    · exact .failed base status e
    -- The version decides, and it belongs to one record only.
    · by_cases hversion : w.store.current.record.version? = base.version?
      · obtain rfl := h.current_eq hv hr hversion
        rw [Store.write_of_version rfl] at hreply ⊢
        exact .accepted hissued hreply
      · rw [Store.write_of_stale hversion] at hreply ⊢
        obtain rfl | ⟨e, rfl⟩ := hreply
        · exact .failed base status _
        · exact .failed base status e

/-- A new revision under an unused version keeps the versions apart. -/
theorem Sound.versions_put (h : w.Sound env) {rev : Revision} {version : String}
    (hv : rev.record.version? = some version) (hu : w.store.Unused version) :
    (w.store.put rev).revisions.Pairwise fun a b => a.record.version? ≠ b.record.version? :=
  List.pairwise_cons.2 ⟨fun old hold => hv ▸ (hu old hold).symm, h.versions⟩

/-- The replies of a visit that has been answered, and those of the visits beside it. -/
theorem forall_answered {earlier later : List Visit} {v : Visit} {r : Request}
    {resume : r.Reply → Invocation (Except Error Revisit)} {reply : r.Reply}
    (hv : w.visits = earlier ++ v :: later) (hr : v.rest = .ask r resume)
    {p : Exchange → Prop} (hx : p ⟨r, reply⟩) (h : ∀ u ∈ w.visits, ∀ x ∈ u.trace, p x) :
    ∀ u ∈ earlier ++ v.answered hr reply :: later, ∀ x ∈ u.trace, p x := by
  rw [hv] at h
  intro u hu x hmem
  obtain hu | rfl | hu : u ∈ earlier ∨ u = v.answered hr reply ∨ u ∈ later := by simpa using hu
  · exact h u (by simp [hu]) x hmem
  · cases hmem with
    | head => exact hx
    | tail _ hmem => exact h v (by simp) x hmem
  · exact h u (by simp [hu]) x hmem

theorem Sound.step {w' : World} (h : w.Sound env)
    (hfresh : ∀ version, env.issues w.store version → w.store.Unused version)
    (hs : Step env w w') : w'.Sound env := by
  cases hs with
  | launch settings trigger now =>
    exact ⟨h.versions, by simpa using h.held, by simpa [Trace.Faithful] using h.faithful,
      h.succession⟩
  | @edit e version he hv =>
    refine ⟨h.versions_put rfl (hfresh version hv), fun v hmem x hx e he => ?_, h.faithful, ?_⟩
    · exact (h.held v hmem x hx e he).put _
    · exact List.isChain_cons_cons.2 ⟨.edited version he, h.succession⟩
  | @reply earlier later v r resume reply after hv hr ha =>
    have hmem : v ∈ w.visits := by simp [hv]
    cases h.effect hmem hr ha with
    | other hw hheld =>
      have hfaithful : (⟨r, reply⟩ : Exchange).IsFaithful := by
        cases r with
        | update base status => cases hw
        | get | list | pick | delete | publish => trivial
      exact ⟨h.versions, forall_answered hv hr hheld h.held,
        forall_answered hv hr hfaithful h.faithful, h.succession⟩
    | failed base status e =>
      exact ⟨h.versions, forall_answered hv hr (fun e he => by cases he) h.held,
        forall_answered hv hr trivial h.faithful, h.succession⟩
    -- Only the visit that is answered learns of the new record; the others know old ones.
    | @accepted status version reply hissued hreply =>
      refine ⟨h.versions_put rfl (hfresh version hissued), forall_answered hv hr ?_ ?_,
        forall_answered hv hr ?_ h.faithful,
        List.isChain_cons_cons.2 ⟨.written version hr (h.faithful v hmem), h.succession⟩⟩
      · intro e he
        obtain rfl | ⟨e, rfl⟩ := hreply
        · obtain rfl := Option.some.inj he
          exact Store.held_put _ _
        · cases he
      · intro u hu x hx e he
        exact (h.held u hu x hx e he).put _
      · obtain rfl | ⟨e, rfl⟩ := hreply
        · exact ⟨version, rfl⟩
        · trivial

/-- Every world of a run in which no version is used twice is sound. -/
theorem Reachable.sound {e : Experiment} (hfresh : env.NeverReuses e)
    (h : Reachable env e w) : w.Sound env := by
  induction h with
  | initial => exact .initial e
  | step hw hs ih => exact ih.step (hfresh _ hw) hs

/-- A step leaves the stored record as it is, or one revision follows it. -/
theorem Sound.step_store {w' : World} (h : w.Sound env) (hs : Step env w w') :
    w'.store = w.store ∨
      ∃ rev, w'.store = w.store.put rev ∧ w.store.current.Succeeds env rev := by
  cases hs with
  | launch => exact .inl rfl
  | @edit e version he hv => exact .inr ⟨_, rfl, .edited version he⟩
  | @reply earlier later v r resume reply after hv hr ha =>
    have hmem : v ∈ w.visits := by simp [hv]
    cases h.effect hmem hr ha with
    | other | failed => exact .inl rfl
    | @accepted status version reply hissued hreply =>
      exact .inr ⟨_, rfl, .written version hr (h.faithful v hmem)⟩

/-- What holds of the first record and passes from each revision to the next holds of all. -/
theorem Reachable.forall_revisions {e : Experiment} {p : Experiment → Prop}
    (hfresh : env.NeverReuses e) (h : Reachable env e w) (he : p e)
    (hnext : ∀ older newer, Revision.Succeeds env older newer → p older.record →
      p newer.record) : ∀ rev ∈ w.store.revisions, p rev.record := by
  induction h with
  | initial => simpa [World.initial, Store.revisions] using he
  | @step w w' hw hs ih =>
    obtain hstore | ⟨rev, hstore, hsucceeds⟩ := (hw.sound hfresh).step_store hs
    · rw [hstore]
      exact ih
    · rw [hstore]
      exact List.forall_mem_cons.2
        ⟨hnext _ rev hsucceeds (ih _ List.mem_cons_self), ih⟩

/-- If other writers leave the spec as it is, all records that are ever stored have it. -/
theorem Reachable.spec_eq {e : Experiment} (hfresh : env.NeverReuses e)
    (hedits : ∀ a b, env.edits a b → b.spec = a.spec) (hw : Reachable env e w) :
    ∀ rev ∈ w.store.revisions, rev.record.spec = e.spec := by
  refine hw.forall_revisions (p := fun a => a.spec = e.spec) hfresh rfl
    fun older newer h hspec => ?_
  cases h with
  | edited version he => exact (hedits _ _ he).trans hspec
  | written => exact hspec

end World

end ChaosController
