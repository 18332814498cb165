/-
  ChaosController.Proofs.Records

  When an object decodes as a record.

  Whether it does is a matter of its members, not of their order: each of them has to be
  admitted by the record, and no field may be given twice (`checkMembers_eq_ok`). So an
  object that decodes still does when a member is set in it. What the fields decode to depends on
  the members of their names alone.
-/

import ChaosController.Experiment.Wire
import ChaosController.Proofs.InstantText
import Mathlib.Data.List.Nodup

namespace ChaosController

/-- A computation in two parts gives a value if both parts do. -/
theorem bind_eq_ok {ε α β : Type} {x : Except ε α} {f : α → Except ε β} {b : β} :
    x >>= f = .ok b ↔ ∃ a, x = .ok a ∧ f a = .ok b := by
  cases x <;> simp [bind, Except.bind]

/-- A check passes together with what comes after it. -/
theorem check_bind_eq_ok {ε α : Type} {x : Except ε Unit} {f : Unit → Except ε α} {a : α} :
    x >>= f = .ok a ↔ x = .ok () ∧ f () = .ok a := by
  cases x <;> simp [bind, Except.bind]

theorem map_eq_ok {ε α β : Type} {x : Except ε α} {f : α → β} {b : β} :
    x.map f = .ok b ↔ ∃ a, x = .ok a ∧ f a = b := by
  cases x <;> simp [Except.map]

namespace Json

/-! ## Members -/

/-- The members of an object; anything else has none. -/
def members : Json → List (String × Json)
  | obj members => members
  | _ => []

/-- Takes all members of a name out of an object. -/
def removeMember (name : String) (members : List (String × Json)) : List (String × Json) :=
  members.filter (·.1 != name)

/-- Sets a member of an object. All members of its name give way to it. -/
def setMember (name : String) (value : Json) (members : List (String × Json)) :
    List (String × Json) :=
  removeMember name members ++ [(name, value)]

variable {name n : String} {value : Json} {ms : List (String × Json)}

theorem mem_removeMember {m : String × Json} :
    m ∈ removeMember name ms ↔ m ∈ ms ∧ m.1 ≠ name := by
  simp [removeMember]

theorem mem_setMember {m : String × Json} :
    m ∈ setMember name value ms ↔ m ∈ ms ∧ m.1 ≠ name ∨ m = (name, value) := by
  simp [setMember, mem_removeMember]

@[simp] theorem lookup_removeMember_self : (removeMember name ms).lookup name = none := by
  rw [List.lookup_eq_none_iff]
  intro m hm
  simpa using (mem_removeMember.1 hm).2.symm

@[simp] theorem lookup_removeMember_of_ne (h : n ≠ name) :
    (removeMember name ms).lookup n = ms.lookup n := by
  induction ms with
  | nil => rfl
  | cons m ms ih =>
    obtain ⟨k, v⟩ := m
    by_cases hk : k = name
    · subst hk
      rw [removeMember, List.filter_cons_of_neg (by simp), List.lookup_cons,
        beq_eq_false_iff_ne.2 h]
      exact ih
    · rw [removeMember, List.filter_cons_of_pos (by simpa using hk), List.lookup_cons,
        List.lookup_cons]
      exact congrArg _ (funext fun _ => ih)

/-- A member that is set and taken out leaves what was beside it. -/
@[simp] theorem removeMember_setMember_self :
    removeMember name (setMember name value ms) = removeMember name ms := by
  simp [removeMember, setMember]

@[simp] theorem removeMember_setMember_of_ne (h : n ≠ name) :
    removeMember n (setMember name value ms) = setMember name value (removeMember n ms) := by
  simp [removeMember, setMember, h.symm, Bool.and_comm]

@[simp] theorem lookup_setMember_self : (setMember name value ms).lookup name = some value := by
  simp [setMember, List.lookup_append]

@[simp] theorem lookup_setMember_of_ne (h : n ≠ name) :
    (setMember name value ms).lookup n = ms.lookup n := by
  have hlast : ([(name, value)] : List (String × Json)).lookup n = none := by simpa using h
  rw [setMember, List.lookup_append, lookup_removeMember_of_ne h, hlast, Option.or_none]

theorem reverse_removeMember : (removeMember name ms).reverse = removeMember name ms.reverse :=
  List.filter_reverse.symm

/-- A member that has been set is the last one. -/
theorem lookup_reverse_setMember_self :
    (setMember name value ms).reverse.lookup name = some value := by
  simp [setMember]

theorem lookup_reverse_setMember_of_ne (h : n ≠ name) :
    (setMember name value ms).reverse.lookup n = ms.reverse.lookup n := by
  rw [setMember, List.reverse_append, reverse_removeMember, List.reverse_singleton,
    List.singleton_append, List.lookup_cons, beq_eq_false_iff_ne.2 h]
  exact lookup_removeMember_of_ne h

/-! ## Checks of members -/

variable {fields : List Field} {seen : List String}

/-- What a record asks of a single member: its name can be read, and its value is what the field
    of that name asks for. -/
def Admits (fields : List Field) (m : String × Json) : Prop :=
  nameFault? m.2 = none ∧
    (match fields.find? (·.name == m.1) with
      | some f => f.check m.2
      | none => skip m.2) = .ok ()

/-- The fields of a record that are given, once for each time. -/
def given (fields : List Field) (ms : List (String × Json)) : List String :=
  (ms.map Prod.fst).filter fun name => (fields.find? (·.name == name)).isSome

theorem mem_given : n ∈ given fields ms ↔
    (∃ j, (n, j) ∈ ms) ∧ (fields.find? (·.name == n)).isSome := by
  simp [given]

theorem given_cons_of_some {f : Field} {j : Json} (h : fields.find? (·.name == n) = some f) :
    given fields ((n, j) :: ms) = n :: given fields ms := by
  simp [given, h]

theorem given_cons_of_none {j : Json} (h : fields.find? (·.name == n) = none) :
    given fields ((n, j) :: ms) = given fields ms := by
  simp [given, h]

/-- The members of a record pass, if each of them does and no field is given twice. -/
theorem checkMembers_eq_ok : checkMembers fields seen ms = .ok () ↔
    (∀ m ∈ ms, Admits fields m) ∧ (given fields ms).Nodup ∧ ∀ n ∈ given fields ms, n ∉ seen := by
  -- The fields that have been seen grow from member to member.
  induction ms generalizing seen with
  | nil => simp [checkMembers, given]
  | cons m ms ih =>
    obtain ⟨name, j⟩ := m
    rw [List.forall_mem_cons, Admits]
    cases hname : nameFault? j with
    | some e => simp [checkMembers, hname]
    | none =>
      cases hfind : fields.find? (·.name == name) with
      | none =>
        simp only [checkMembers, hname, hfind, given_cons_of_none hfind, check_bind_eq_ok, ih]
        simp [and_assoc]
      | some f =>
        rw [given_cons_of_some hfind, List.nodup_cons, List.forall_mem_cons]
        by_cases hseen : name ∈ seen
        · simp [checkMembers, hname, hfind, hseen, bind, Except.bind, throw, throwThe,
            MonadExceptOf.throw]
        · have hcheck : checkMembers fields seen ((name, j) :: ms) =
              (f.check j >>= fun _ => checkMembers fields (name :: seen) ms) := by
            simp [checkMembers, hname, hfind, hseen]
          rw [hcheck, check_bind_eq_ok, ih]
          constructor
          · rintro ⟨hj, hall, hnodup, hnew⟩
            exact ⟨⟨⟨rfl, hj⟩, hall⟩,
              ⟨fun hmem => hnew name hmem List.mem_cons_self, hnodup⟩, hseen,
              fun n hn hmem => hnew n hn (List.mem_cons_of_mem _ hmem)⟩
          · rintro ⟨⟨⟨-, hj⟩, hall⟩, ⟨hfresh, hnodup⟩, -, hnew⟩
            refine ⟨hj, hall, hnodup, fun n hn hmem => ?_⟩
            obtain rfl | hmem := List.mem_cons.1 hmem
            · exact hfresh hn
            · exact hnew n hn hmem

/-- Setting a member that the record admits keeps the members in order. -/
theorem checkMembers_setMember (h : checkMembers fields [] ms = .ok ())
    (hvalue : Admits fields (name, value)) :
    checkMembers fields [] (setMember name value ms) = .ok () := by
  rw [checkMembers_eq_ok] at h ⊢
  obtain ⟨hall, hnodup, -⟩ := h
  -- The member that is set comes last, after the old one of its name is taken out.
  refine ⟨fun m hm => ?_, ?_, by simp⟩
  · obtain ⟨hm, -⟩ | rfl := mem_setMember.1 hm
    · exact hall m hm
    · exact hvalue
  · have hsub : (given fields (removeMember name ms)).Sublist (given fields ms) :=
      ((List.filter_sublist ..).map _).filter _
    have hfresh : name ∉ given fields (removeMember name ms) := by
      rintro hmem
      obtain ⟨⟨j, hj⟩, -⟩ := mem_given.1 hmem
      exact (mem_removeMember.1 hj).2 rfl
    have hgiven : given fields (setMember name value ms) =
        given fields (removeMember name ms) ++ given fields [(name, value)] := by
      simp [given, setMember]
    have hkept := hnodup.sublist hsub
    rw [hgiven]
    cases hfind : fields.find? (·.name == name) with
    | none =>
      rw [given_cons_of_none hfind]
      exact (List.append_nil _).symm ▸ hkept
    | some f =>
      rw [given_cons_of_some hfind]
      exact List.nodup_append_comm.2 (List.nodup_cons.2 ⟨hfresh, hkept⟩)

/-! ## Fields -/

variable {α : Type} {shape : Shape} {source : Source} {decode : Json → Decoded α}

/-- An object decodes as a record, if its members pass and the record can be built of them. -/
theorem decodeRecord_obj {build : Parts → Decoded α} {a : α} :
    decodeRecord shape build source (obj ms) = .ok a ↔
      checkMembers shape.fields [] ms = .ok () ∧ build (.named ms) = .ok a :=
  check_bind_eq_ok

/-- A value that decodes is admitted for its field. -/
theorem admits_of_decode {a : α} (hvalue : nameFault? value = none)
    (hfind : fields.find? (·.name == name) = some (field name decode))
    (h : decode value = .ok a) : Admits fields (name, value) := by
  refine ⟨hvalue, ?_⟩
  simp [hfind, field, h, Except.map]

theorem optional_of_lookup {index : Nat} {default : α} (h : ms.lookup name = some value) :
    optional (.named ms) index name default decode = decode value := by
  simp only [optional, h]

/-- A field that has to be there decodes if its member does. -/
theorem required_eq_ok {index : Nat} {a : α} :
    shape.required (.named ms) index name decode = .ok a ↔
      ∃ j, ms.lookup name = some j ∧ decode j = .ok a := by
  cases h : ms.lookup name <;> simp [Shape.required, h]

/-- What an optional field decodes to depends on the member of its name alone. -/
theorem optional_congr {index : Nat} {default : α} {ms' : List (String × Json)}
    (h : ms'.lookup name = ms.lookup name) :
    optional (.named ms') index name default decode =
      optional (.named ms) index name default decode := by
  simp only [optional, h]

/-- A member that is missing counts as `null`, where `null` is no value. -/
theorem optional_nullable {index : Nat} :
    optional (.named ms) index name none (nullable decode) =
      nullable decode ((ms.lookup name).getD null) := by
  cases h : ms.lookup name <;> simp [optional, h, nullable]

/-- Items that are documents of values decode to these values. -/
theorem decodeItems_map {encode : α → Json} (h : ∀ a, decode (encode a) = .ok a) (l : List α) :
    decodeItems decode (l.map encode) = .ok l := by
  induction l with
  | nil => rfl
  | cons a l ih => simp [decodeItems, h, ih, bind, Except.bind, pure, Except.pure]

/-- Every member passes that can be read and passes on its own. -/
theorem checkEach_eq_ok {check : String → Json → Decoded Unit} :
    Form.checkEach check ms = .ok () ↔
      ∀ m ∈ ms, nameFault? m.2 = none ∧ check m.1 m.2 = .ok () := by
  induction ms with
  | nil => simp [Form.checkEach]
  | cons m ms ih =>
    obtain ⟨name, j⟩ := m
    cases hname : nameFault? j with
    | some e =>
      simp [Form.checkEach, hname, bind, Except.bind, throw, throwThe, MonadExceptOf.throw]
    | none =>
      have hcheck : Form.checkEach check ((name, j) :: ms) =
          (check name j >>= fun _ => Form.checkEach check ms) := by
        simp [Form.checkEach, hname]
      rw [hcheck, check_bind_eq_ok, ih, List.forall_mem_cons]
      simp [hname]

end Json

open Json

/-! ## Conditions -/

theorem decodeTime_text (i : Instant) : decodeTime (.str i.text) = .ok i := by
  simp [decodeTime, Instant.read_text, Except.mapError]

theorem Truth.decode_text (source : Source) (t : Truth) :
    decode source (.str t.text) = .ok t := by
  cases t <;> rfl

/-- Conditions are read back from their documents. -/
theorem Condition.decode_encode (source : Source) (c : Condition) :
    decode source c.encode = .ok c := by
  rw [decode, encode, decodeRecord_obj, Truth.encode, Instant.encode]
  constructor
  · simp [shape, checkMembers, field, nameFault?, decodeString, Truth.decode_text,
      decodeTime_text, Except.map, bind, Except.bind]
  · simp [Shape.required, List.lookup_cons, decodeString, Truth.decode_text, decodeTime_text, bind,
      Except.bind, pure, Except.pure]

/-! ## Records -/

theorem Status.decode_obj {source : Source} {ms : List (String × Json)} {s : Status} :
    decode source (obj ms) = .ok s ↔ checkMembers (shape source).fields [] ms = .ok () ∧
      optional (.named ms) 0 "phase" none Phase.decodeRecorded = .ok s.phase ∧
      optional (.named ms) 1 "lastRunTime" none (nullable decodeTime) = .ok s.lastRun ∧
      optional (.named ms) 2 "message" none (nullable decodeString) = .ok s.message ∧
      optional (.named ms) 3 "conditions" [] (decodeList (Condition.decode source)) =
        .ok s.conditions := by
  rw [decode, decodeRecord_obj]
  simp only [bind_eq_ok]
  constructor
  · rintro ⟨hms, phase, hphase, lastRun, hrun, message, hmessage, conditions, hconditions, ⟨⟩⟩
    exact ⟨hms, hphase, hrun, hmessage, hconditions⟩
  · rintro ⟨hms, hphase, hrun, hmessage, hconditions⟩
    exact ⟨hms, _, hphase, _, hrun, _, hmessage, _, hconditions, rfl⟩

/-- Setting a member that its form allows keeps a record in form. -/
theorem Form.check_setMember {room : Nat} {title name : String} {value : Json}
    {forms : List (String × Form)} {ms : List (String × Json)}
    (h : check room (.record title forms []) (obj ms) = .ok ())
    (hvalue : nameFault? value = none)
    (hcheck : checkMember (room - 1) [] forms name value = .ok ()) :
    check room (.record title forms []) (obj (setMember name value ms)) = .ok () := by
  simp only [check, check_bind_eq_ok, checkEach_eq_ok] at h ⊢
  obtain ⟨hall, -⟩ := h
  refine ⟨fun m hm => ?_, rfl⟩
  obtain ⟨hm, -⟩ | rfl := mem_setMember.1 hm
  · exact hall m hm
  · exact ⟨hvalue, hcheck⟩

/-- What is kept of metadata is told by the last members of its fields. -/
theorem Metadata.kept_obj {ms : List (String × Json)} {m : Metadata} :
    kept (obj ms) = .ok m ↔
      optional (.named ms.reverse) 0 "name" none (nullable decodeString) = .ok m.name ∧
      optional (.named ms.reverse) 1 "generateName" none (nullable decodeString) =
        .ok m.generateName ∧
      optional (.named ms.reverse) 2 "namespace" none (nullable decodeString) =
        .ok m.namespace ∧
      optional (.named ms.reverse) 3 "resourceVersion" none (nullable decodeString) =
        .ok m.resourceVersion ∧
      optional (.named ms.reverse) 4 "uid" none (nullable decodeString) = .ok m.uid ∧
      optional (.named ms.reverse) 5 "generation" none
        (nullable (decodeInt "i64" (-9223372036854775808) 9223372036854775807)) =
          .ok m.generation ∧
      optional (.named ms.reverse) 6 "labels" none (nullable Labels.decode) = .ok m.labels := by
  simp only [kept, bind_eq_ok]
  constructor
  · rintro ⟨_, hname, _, hgenerate, _, hns, _, hversion, _, huid, _, hgeneration, _, hlabels,
      ⟨⟩⟩
    exact ⟨hname, hgenerate, hns, hversion, huid, hgeneration, hlabels⟩
  · rintro ⟨hname, hgenerate, hns, hversion, huid, hgeneration, hlabels⟩
    exact ⟨_, hname, _, hgenerate, _, hns, _, hversion, _, huid, _, hgeneration, _, hlabels, rfl⟩

/-- Metadata is decoded only from objects. -/
theorem Metadata.exists_obj_of_decode {room : Nat} {j : Json} {m : Metadata}
    (h : decode room j = .ok m) : ∃ ms, j = obj ms := by
  obtain ⟨_, -, hkept⟩ := bind_eq_ok.1 h
  unfold kept at hkept
  split at hkept
  · exact ⟨_, rfl⟩
  · cases hkept

/-- A version that is set in metadata takes the place of the old one, and all else stays. -/
theorem Metadata.decode_setVersion {room : Nat} {ms : List (String × Json)} {m : Metadata}
    (version : String) (h : decode room (obj ms) = .ok m) :
    decode room (obj (setMember "resourceVersion" (.str version) ms)) =
      .ok { m with resourceVersion := some version } := by
  obtain ⟨hform, hkept⟩ := check_bind_eq_ok.1 h
  obtain ⟨hname, hgenerate, hns, -, huid, hgeneration, hlabels⟩ := kept_obj.1 hkept
  refine check_bind_eq_ok.2 ⟨Form.check_setMember hform rfl rfl, kept_obj.2 ?_⟩
  have hother {n : String} (hn : n ≠ "resourceVersion") :
      (setMember "resourceVersion" (.str version) ms).reverse.lookup n = ms.reverse.lookup n :=
    lookup_reverse_setMember_of_ne hn
  have hversion : (setMember "resourceVersion" (.str version) ms).reverse.lookup
      "resourceVersion" = some (.str version) := lookup_reverse_setMember_self
  refine ⟨?_, ?_, ?_, ?_, ?_, ?_, ?_⟩
  · rwa [optional_congr (hother (by decide))]
  · rwa [optional_congr (hother (by decide))]
  · rwa [optional_congr (hother (by decide))]
  · rw [optional_of_lookup hversion]
    rfl
  · rwa [optional_congr (hother (by decide))]
  · rwa [optional_congr (hother (by decide))]
  · rwa [optional_congr (hother (by decide))]

theorem Experiment.decode_obj {source : Source} {ms : List (String × Json)} {e : Experiment} :
    decode source (obj ms) = .ok e ↔ checkMembers (shape source).fields [] ms = .ok () ∧
      (shape source).required (.named ms) 0 "metadata" (Metadata.decode (depthLimit - 1)) =
        .ok e.metadata ∧
      (shape source).required (.named ms) 1 "spec" (Spec.decode source) = .ok e.spec ∧
      optional (.named ms) 2 "status" none (nullable (Status.decode source)) =
        .ok e.status := by
  rw [decode, decodeRecord_obj]
  simp only [bind_eq_ok]
  constructor
  · rintro ⟨hms, metadata, hmetadata, spec, hspec, status, hstatus, ⟨⟩⟩
    exact ⟨hms, hmetadata, hspec, hstatus⟩
  · rintro ⟨hms, hmetadata, hspec, hstatus⟩
    exact ⟨hms, _, hmetadata, _, hspec, _, hstatus, rfl⟩

end ChaosController
