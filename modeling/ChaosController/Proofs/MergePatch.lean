/-
  ChaosController.Proofs.MergePatch

  Records after a merge patch.

  A merge patch sets the members of an object that it has, and leaves the others. It can only
  take a member out by a `null`, and the document of a status has none: what a status does not
  have is just missing in it. So a status that is merged into a document is laid over the recorded
  one (`Status.laidOver`), and takes its place if it has everything that the recorded one has, as
  all statuses of the controller do (`Reconcile.Derived.laidOver_eq`). Members of the document
  that nobody reads are left as they are.
-/

import ChaosController.Api.Calls
import ChaosController.Proofs.Records
import ChaosController.Proofs.Writes

namespace ChaosController

namespace Json

/-! ## Merge patches -/

mutual
/-- A document with a merge patch applied. An object is merged member by member, into no members
    if the document is no object; anything else takes the document's place. -/
def mergePatch : (target patch : Json) → Json
  | target, obj patch => obj (mergeMembers target.members patch)
  | _, patch => patch
/-- The members of an object with the members of a patch merged one after another. A member that
    is `null` takes the object's member out. -/
def mergeMembers : (target patch : List (String × Json)) → List (String × Json)
  | target, [] => target
  | target, (name, null) :: rest => mergeMembers (removeMember name target) rest
  | target, (name, value) :: rest =>
    mergeMembers (setMember name (mergePatch ((target.lookup name).getD null) value) target) rest
end

@[simp] theorem mergePatch_obj (target : Json) (patch : List (String × Json)) :
    target.mergePatch (obj patch) = obj (mergeMembers target.members patch) := by
  rw [mergePatch]

@[simp] theorem mergePatch_str (target : Json) (s : String) :
    target.mergePatch (str s) = str s := by
  rw [mergePatch]
  nofun

@[simp] theorem mergePatch_arr (target : Json) (items : List Json) :
    target.mergePatch (arr items) = arr items := by
  rw [mergePatch]
  nofun

@[simp] theorem mergeMembers_nil (target : List (String × Json)) :
    mergeMembers target [] = target := by
  rw [mergeMembers]

/-- A member of a patch that is not `null` is set. -/
theorem mergeMembers_cons {target rest : List (String × Json)} {name : String} {value : Json}
    (h : value ≠ null) : mergeMembers target ((name, value) :: rest) =
      mergeMembers
        (setMember name (mergePatch ((target.lookup name).getD null) value) target) rest := by
  rw [mergeMembers]
  simpa using h

/-! ## Patches without objects -/

variable {name n : String} {value : Option Json} {target patch : List (String × Json)}

/-- A value that takes the place of whatever it is merged into. -/
def Replaces (value : Json) : Prop :=
  value ≠ null ∧ ∀ target : Json, target.mergePatch value = value

theorem replaces_str (s : String) : (str s).Replaces := ⟨nofun, fun t => mergePatch_str t s⟩

theorem replaces_arr (items : List Json) : (arr items).Replaces :=
  ⟨nofun, fun t => mergePatch_arr t items⟩

/-- The members of a patch are set one after another. -/
theorem mergeMembers_cons_of_replaces {j : Json} (h : j.Replaces) :
    mergeMembers target ((name, j) :: patch) = mergeMembers (setMember name j target) patch := by
  rw [mergeMembers_cons h.1, h.2]

/-- A merged object has the last member of the patch, or else its own. -/
theorem lookup_mergeMembers (h : ∀ m ∈ patch, m.2.Replaces) :
    (mergeMembers target patch).lookup n = (patch.reverse.lookup n).or (target.lookup n) := by
  induction patch generalizing target with
  | nil => simp
  | cons m patch ih =>
    obtain ⟨name, j⟩ := m
    obtain ⟨hj, hpatch⟩ := List.forall_mem_cons.1 h
    rw [mergeMembers_cons_of_replaces hj, ih hpatch, List.reverse_cons, List.lookup_append,
      Option.or_assoc]
    congr 1
    -- A member that is found later in the patch hides this one, which hides the target's.
    by_cases hn : n = name
    · subst hn
      rw [lookup_setMember_self, List.lookup_cons_self, Option.some_or]
    · have hnone : ([(name, j)] : List (String × Json)).lookup n = none := by simpa using hn
      rw [lookup_setMember_of_ne hn, hnone, Option.none_or]

/-- An object that passes still does when admitted members are merged into it. -/
theorem checkMembers_mergeMembers {fields : List Field} (h : ∀ m ∈ patch, m.2.Replaces)
    (hadmits : ∀ m ∈ patch, Admits fields m) (htarget : checkMembers fields [] target = .ok ()) :
    checkMembers fields [] (mergeMembers target patch) = .ok () := by
  induction patch generalizing target with
  | nil => simpa using htarget
  | cons m patch ih =>
    obtain ⟨hm, hpatch⟩ := List.forall_mem_cons.1 h
    obtain ⟨hfirst, hadmits⟩ := List.forall_mem_cons.1 hadmits
    rw [mergeMembers_cons_of_replaces hm]
    exact ih hpatch hadmits (checkMembers_setMember htarget hfirst)

/-! ## Optional members -/

theorem mem_member? {m : String × Json} : m ∈ member? name value ↔ ∃ j ∈ value, m = (name, j) := by
  cases value <;> simp [member?]

@[simp] theorem reverse_member? : (member? name value).reverse = member? name value := by
  cases value <;> rfl

@[simp] theorem lookup_member?_self : (member? name value).lookup name = value := by
  cases value <;> simp [member?]

@[simp] theorem lookup_member?_of_ne (h : n ≠ name) : (member? name value).lookup n = none := by
  cases value <;> simp [member?, h]

/-- An optional field has the value that is merged into it, or else the one that it has had. -/
theorem optional_of_or {α : Type} {decode : Json → Decoded (Option α)} {encode : α → Json}
    {index : Nat} {new old : Option α} {merged : List (String × Json)}
    (hdecode : ∀ a, decode (encode a) = .ok (some a))
    (hlookup : merged.lookup n = (new.map encode).or (target.lookup n))
    (hold : optional (.named target) index n none decode = .ok old) :
    optional (.named merged) index n none decode = .ok (new.or old) := by
  cases new with
  | none =>
    rw [optional_congr hlookup, hold]
    rfl
  | some a =>
    rw [optional_of_lookup hlookup, hdecode]
    rfl

end Json

open Json

/-! ## Statuses -/

/-- What is recorded when a status is merged into an old one: what the status does not have stays
    as it was. -/
def Status.laidOver (s old : Status) : Status where
  phase := s.phase.or old.phase
  lastRun := s.lastRun.or old.lastRun
  message := s.message.or old.message
  conditions := if s.conditions.isEmpty then old.conditions else s.conditions

@[simp] theorem Status.laidOver_empty (s : Status) : s.laidOver .empty = s := by
  obtain ⟨phase, lastRun, message, conditions⟩ := s
  cases conditions <;> simp [laidOver, empty]

/-- The statuses that are told from a record have everything that the status of the record has. -/
theorem Reconcile.Derived.laidOver_eq {c : Context} {base : Experiment} {status : Status}
    (h : Derived c base status) : status.laidOver (base.status.getD .empty) = status := by
  have hrun : base.lastRun? = (base.status.getD .empty).lastRun := by
    cases hstatus : base.status <;> simp [Experiment.lastRun?, hstatus, Status.empty]
  have hconditions (phase reason message) :
      (nextStatus base phase reason message c.now).conditions.isEmpty = false := by
    simp [nextStatus, Status.conditions_setCondition]
  cases h with
  | kept phase reason message =>
    simp only [Status.laidOver, hconditions, lastRun_nextStatus, hrun, Option.or_self]
    rfl
  | run phase reason message =>
    simp only [Status.laidOver, Status.conditions_recordRun, hconditions]
    rfl

theorem nullable_decodeString_str (s : String) :
    nullable decodeString (.str s) = .ok (some s) := rfl

theorem nullable_decodeTime_encode (i : Instant) :
    nullable decodeTime i.encode = .ok (some i) := by
  show (decodeTime (.str i.text)).map some = .ok (some i)
  rw [decodeTime_text]
  rfl

theorem Phase.decodeRecorded_encode (p : Phase) : decodeRecorded p.encode = .ok (some p) := by
  cases p <;> rfl

namespace Status

variable {source : Source} {status old : Status}

/-- The document of a status's conditions, if there are any. -/
def conditionsDocument? (s : Status) : Option Json :=
  if s.conditions.isEmpty then none else some (.arr (s.conditions.map Condition.encode))

theorem of_mem_conditionsDocument? {s : Status} {j : Json} (h : j ∈ s.conditionsDocument?) :
    j = .arr (s.conditions.map Condition.encode) := by
  unfold conditionsDocument? at h
  split at h
  · cases h
  · exact (Option.some.inj h).symm

theorem decode_conditionsDocument {j : Json} (h : j ∈ status.conditionsDocument?) :
    decodeList (Condition.decode source) j = .ok status.conditions := by
  rw [of_mem_conditionsDocument? h]
  exact decodeItems_map (Condition.decode_encode source) _

/-- The members of a status's document. -/
theorem members_encode (s : Status) : s.encode.members =
    member? "conditions" s.conditionsDocument? ++
      member? "lastRunTime" (s.lastRun.map Instant.encode) ++
      member? "message" (s.message.map .str) ++ member? "phase" (s.phase.map Phase.encode) := rfl

theorem mergePatch_encode (stored : Json) (s : Status) :
    stored.mergePatch s.encode = .obj (mergeMembers stored.members s.encode.members) :=
  mergePatch_obj ..

/-- Every member of a status's document is admitted by the record, and replaces what it is merged
    into. -/
theorem of_mem_members_encode {m : String × Json} (h : m ∈ status.encode.members) :
    m.2.Replaces ∧ Admits (shape source).fields m := by
  simp only [members_encode, List.mem_append, mem_member?, Option.mem_def,
    Option.map_eq_some_iff] at h
  obtain ((⟨j, hj, rfl⟩ | ⟨_, ⟨lastRun, -, rfl⟩, rfl⟩) | ⟨_, ⟨message, -, rfl⟩, rfl⟩) |
    ⟨_, ⟨phase, -, rfl⟩, rfl⟩ := h
  · have hdecode : decodeList (Condition.decode source) j = .ok status.conditions :=
      decode_conditionsDocument hj
    rw [of_mem_conditionsDocument? hj] at hdecode ⊢
    exact ⟨replaces_arr _, admits_of_decode rfl rfl hdecode⟩
  · exact ⟨replaces_str _, admits_of_decode rfl rfl (nullable_decodeTime_encode lastRun)⟩
  · exact ⟨replaces_str _, admits_of_decode rfl rfl (nullable_decodeString_str message)⟩
  · exact ⟨replaces_str _, admits_of_decode rfl rfl (Phase.decodeRecorded_encode phase)⟩

/-- A status that is merged into an object is laid over the status that the object decodes to. -/
theorem decode_mergeMembers {ms : List (String × Json)} (h : decode source (.obj ms) = .ok old) :
    decode source (.obj (mergeMembers ms status.encode.members)) = .ok (status.laidOver old) := by
  obtain ⟨hms, hphase, hrun, hmessage, hconditions⟩ := decode_obj.1 h
  have hreplaces : ∀ m ∈ status.encode.members, m.2.Replaces :=
    fun m hm => (of_mem_members_encode hm : m.2.Replaces ∧ Admits (shape source).fields m).1
  -- No name occurs twice in the document of a status.
  have hlookup (n : String) : (mergeMembers ms status.encode.members).lookup n =
      ((member? "phase" (status.phase.map Phase.encode)).lookup n).or
        (((member? "message" (status.message.map .str)).lookup n).or
          (((member? "lastRunTime" (status.lastRun.map Instant.encode)).lookup n).or
            (((member? "conditions" status.conditionsDocument?).lookup n).or
              (ms.lookup n)))) := by
    rw [lookup_mergeMembers hreplaces, members_encode]
    simp only [List.reverse_append, reverse_member?, List.lookup_append, Option.or_assoc]
  rw [decode_obj]
  refine ⟨checkMembers_mergeMembers hreplaces (fun m hm => (of_mem_members_encode hm).2) hms,
    optional_of_or Phase.decodeRecorded_encode ?_ hphase,
    optional_of_or nullable_decodeTime_encode ?_ hrun,
    optional_of_or nullable_decodeString_str ?_ hmessage, ?_⟩
  · rw [hlookup]
    simp
  · rw [hlookup]
    simp
  · rw [hlookup]
    simp
  · have hlast : (mergeMembers ms status.encode.members).lookup "conditions" =
        status.conditionsDocument?.or (ms.lookup "conditions") := by
      rw [hlookup]
      simp
    -- No conditions are no member, so the old ones stay.
    cases hdocument : status.conditionsDocument? with
    | none =>
      have hnil : status.conditions.isEmpty = true := by
        simpa [conditionsDocument?] using hdocument
      rw [hdocument] at hlast
      rw [optional_congr hlast, hconditions, laidOver, if_pos hnil]
    | some j =>
      have hcons : ¬ status.conditions.isEmpty = true := by
        intro hnil
        simp [conditionsDocument?, hnil] at hdocument
      rw [hdocument] at hlast
      rw [optional_of_lookup hlast, decode_conditionsDocument hdocument, laidOver, if_neg hcons]

/-- A status that has everything that the recorded one has takes its place when it is merged into
    its document. Into what is no object, a status is merged as into an empty one. -/
theorem decode_mergePatch {stored : Json} {recorded : Option Status}
    (h : nullable (decode source) stored = .ok recorded)
    (hlaid : status.laidOver (recorded.getD .empty) = status) :
    decode source (stored.mergePatch status.encode) = .ok status := by
  rw [mergePatch_encode]
  cases stored with
  | obj ms =>
    obtain ⟨old, hold, rfl⟩ := map_eq_ok.1 h
    exact (decode_mergeMembers hold).trans (congrArg _ hlaid)
  | null | bool | num | str | arr | fault =>
    have hempty : decode source (.obj []) = .ok .empty := rfl
    exact (decode_mergeMembers hempty).trans (congrArg _ (laidOver_empty status))

end Status

/-! ## Records -/

/-- A status write sets the version and the status of a document. -/
theorem Api.mergePatch_statusPatch (ms : List (String × Json)) (version : String)
    (status : Status) :
    (Json.obj ms).mergePatch (statusPatch version status) =
      .obj (setMember "status" (((ms.lookup "status").getD .null).mergePatch status.encode)
        (setMember "metadata" (.obj (setMember "resourceVersion" (.str version)
          ((ms.lookup "metadata").getD .null).members)) ms)) := by
  have hversion : Json.obj [("resourceVersion", .str version)] ≠ .null := nofun
  have hencode : status.encode ≠ .null := nofun
  rw [statusPatch, mergePatch_obj, mergeMembers_cons hversion, mergeMembers_cons hencode,
    mergeMembers_nil, lookup_setMember_of_ne (by decide)]
  simp only [members, mergePatch_obj, mergeMembers_cons_of_replaces (replaces_str version),
    mergeMembers_nil]

/-- A status that has everything that the one of a record has takes its place when the document of
    the record is patched; the version is set, and all else stays. -/
theorem Experiment.decode_mergePatch {source : Source} {ms : List (String × Json)}
    {base : Experiment} {status : Status} (version : String)
    (h : decode source (.obj ms) = .ok base)
    (hlaid : status.laidOver (base.status.getD .empty) = status) :
    decode source ((Json.obj ms).mergePatch (Api.statusPatch version status)) =
      .ok (base.stamped status version) := by
  obtain ⟨hms, hmetadata, hspec, hstatus⟩ := decode_obj.1 h
  obtain ⟨j, hj, hmetadata⟩ := required_eq_ok.1 hmetadata
  obtain ⟨metadata, rfl⟩ := Metadata.exists_obj_of_decode hmetadata
  obtain ⟨spec, hlookup, hspec⟩ := required_eq_ok.1 hspec
  rw [optional_nullable] at hstatus
  have hversioned := Metadata.decode_setVersion version hmetadata
  have hmerged := Status.decode_mergePatch hstatus hlaid
  rw [Status.mergePatch_encode] at hmerged
  have hstatus : nullable (Status.decode source) (.obj (mergeMembers
      ((ms.lookup "status").getD .null).members status.encode.members)) = .ok (some status) :=
    map_eq_ok.2 ⟨status, hmerged, rfl⟩
  rw [Api.mergePatch_statusPatch, hj, Option.getD_some, members, Status.mergePatch_encode,
    decode_obj]
  refine ⟨checkMembers_setMember (checkMembers_setMember hms (admits_of_decode rfl rfl hversioned))
    (admits_of_decode rfl rfl hstatus), required_eq_ok.2 ⟨_, ?_, hversioned⟩,
    required_eq_ok.2 ⟨spec, ?_, hspec⟩, ?_⟩
  · rw [lookup_setMember_of_ne (by decide), lookup_setMember_self]
  · rw [lookup_setMember_of_ne (by decide), lookup_setMember_of_ne (by decide), hlookup]
  · rw [optional_of_lookup lookup_setMember_self, hstatus]
    rfl

end ChaosController
