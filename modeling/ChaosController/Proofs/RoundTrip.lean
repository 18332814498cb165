/-
  ChaosController.Proofs.RoundTrip

  Specs and statuses are read back from their documents.

  Nothing is lost on the way to a document and back, except that an unsupported attack must not
  have the name of the supported one. What has been decoded once never has: its name has been
  looked at. So whatever leniency a document was read with, what it was read as stays the same
  from then on, whether it is kept as a value or sent as a text (`wire_round_trip`).
-/

import ChaosController.Proofs.Documents
import ChaosController.Proofs.MergePatch

namespace ChaosController

open Json

/-! ## Documents of records -/

namespace Json

variable {name n : String} {value : Option Json} {ms : List (String × Json)}

theorem names_member? : ((member? name value).map Prod.fst).Sublist [name] := by
  cases value <;> simp [member?]

/-- Members in the order of their names pass if each of them does. -/
theorem checkMembers_of_pairwise {fields : List Field} (h : ms.Pairwise fun a b => a.1 < b.1)
    (hadmits : ∀ m ∈ ms, Admits fields m) : checkMembers fields [] ms = .ok () := by
  have hnodup : (ms.map Prod.fst).Nodup :=
    List.pairwise_map.2 (h.imp String.ne_of_lt)
  exact checkMembers_eq_ok.2 ⟨hadmits, hnodup.filter _, by simp⟩

/-- An optional field has the value that its member is the document of. -/
theorem optional_of_map {α : Type} {decode : Json → Decoded (Option α)} {encode : α → Json}
    {index : Nat} {a : Option α} (hdecode : ∀ a, decode (encode a) = .ok (some a))
    (hlookup : ms.lookup n = a.map encode) :
    optional (.named ms) index n none decode = .ok a := by
  have hnone : optional (.named []) index n none decode = .ok none := rfl
  have hor : ms.lookup n = (a.map encode).or (([] : List (String × Json)).lookup n) := by
    simpa using hlookup
  simpa using optional_of_or hdecode hor hnone

end Json

/-! ## Label maps -/

namespace Labels

theorem insertEntry_cons_of_lt {key k : String} (value v : String)
    (rest : List (String × String)) (h : k < key) :
    insertEntry key value ((k, v) :: rest) = (k, v) :: insertEntry key value rest := by
  rw [insertEntry, if_neg (String.lt_asymm h), if_neg (String.ne_of_lt h).symm]

/-- A label map is what its own entries make. -/
theorem ofList_entries (labels : Labels) : ofList labels.entries = labels := by
  have hentries : (ofList labels.entries).entries =
      labels.entries.foldl (fun sorted e => insertEntry e.1 e.2 sorted) [] :=
    (List.foldl_hom entries fun _ _ => rfl).symm
  apply Labels.ext
  rw [hentries]
  exact foldl_insert_of_pairwise insertEntry (fun _ _ => rfl) insertEntry_cons_of_lt labels.sorted

end Labels

/-! ## Specs -/

section Specs

variable {source : Source}

theorem Labels.decode_encode (labels : Labels) : decode labels.encode = .ok labels := by
  have hmembers (entries : List (String × String)) :
      decodeMembers decodeString (entries.map fun e => (e.1, .str e.2)) = .ok entries := by
    induction entries with
    | nil => rfl
    | cons e entries ih =>
      simp [decodeMembers, nameFault?, decodeString, ih, bind, Except.bind, pure, Except.pure]
  rw [decode, encode, decodeMap, hmembers]
  exact congrArg Except.ok labels.ofList_entries

theorem Target.decode_encode (source : Source) (t : Target) : decode source t.encode = .ok t := by
  have hns : decodeString (.str t.namespace) = .ok t.namespace := rfl
  have hlabels := t.labels.decode_encode
  rw [decode, encode, decodeRecord_obj]
  refine ⟨checkMembers_eq_ok.2 ⟨?_, by simp [given, shape, field], by simp⟩, ?_⟩
  · simp only [List.forall_mem_cons]
    exact ⟨admits_of_decode rfl rfl hlabels, admits_of_decode rfl rfl hns, List.forall_mem_nil _⟩
  · simp [Shape.required, List.lookup_cons, hns, hlabels, bind, Except.bind, pure, Except.pure]

theorem Mode.decode_encode (source : Source) (m : Mode) : decode source m.encode = .ok m := by
  cases m <;> rfl

/-- An attack is told from its name, unless it is an unsupported one with a supported name. -/
theorem AttackKind.ofText_text {k : AttackKind} (h : k ≠ .unsupported "pod-kill") :
    ofText k.text = k := by
  cases k with
  | podKill => rfl
  | unsupported name =>
    have hname : name ≠ "pod-kill" := fun heq => h (congrArg unsupported heq)
    exact if_neg hname

theorem AttackKind.decode_encode (source : Source) {k : AttackKind}
    (h : k ≠ .unsupported "pod-kill") : decode source k.encode = .ok k := by
  have hname : decodeName k.encodeName = .ok k := congrArg Except.ok (ofText_text h)
  rw [decode, encode, decodeRecord_obj]
  constructor
  · simp [shape, checkMembers, field, encodeName, nameFault?, Except.map, bind, Except.bind,
      show decodeName (.str k.text) = .ok k from hname]
  · simp [Shape.required, hname]

theorem Spec.decode_obj {ms : List (String × Json)} {s : Spec} :
    decode source (obj ms) = .ok s ↔ checkMembers (shape source).fields [] ms = .ok () ∧
      (shape source).required (.named ms) 0 "target" (Target.decode source) = .ok s.target ∧
      (shape source).required (.named ms) 1 "attack" (AttackKind.decode source) = .ok s.attack ∧
      Json.optional (.named ms) 2 "duration" none (nullable decodeString) = .ok s.duration ∧
      Json.optional (.named ms) 3 "mode" Mode.oneShot (Mode.decode source) = .ok s.mode := by
  rw [decode, decodeRecord_obj]
  simp only [bind_eq_ok]
  constructor
  · rintro ⟨hms, target, htarget, attack, hattack, duration, hduration, mode, hmode, ⟨⟩⟩
    exact ⟨hms, htarget, hattack, hduration, hmode⟩
  · rintro ⟨hms, htarget, hattack, hduration, hmode⟩
    exact ⟨hms, _, htarget, _, hattack, _, hduration, _, hmode, rfl⟩

/-- The names of the members of a spec's document are in order. -/
theorem Spec.pairwise_members_encode (s : Spec) :
    s.encode.members.Pairwise fun a b => a.1 < b.1 := by
  have hnames : (s.encode.members.map Prod.fst).Sublist
      ["attack", "duration", "mode", "target"] := by
    cases hd : s.duration <;> simp [encode, members, member?, hd]
  exact List.pairwise_map.1 (List.Pairwise.sublist hnames (by decide))

/-- A spec is read back from its document. -/
theorem Spec.decode_encode (source : Source) {s : Spec} (h : s.attack ≠ .unsupported "pod-kill") :
    decode source s.encode = .ok s := by
  have htarget := s.target.decode_encode source
  have hattack := AttackKind.decode_encode source h
  have hmode := s.mode.decode_encode source
  have hmembers : s.encode.members = [("attack", s.attack.encode)] ++
      member? "duration" (s.duration.map .str) ++
      [("mode", s.mode.encode), ("target", s.target.encode)] := rfl
  have hencode : s.encode = .obj s.encode.members := rfl
  rw [hencode, decode_obj]
  refine ⟨checkMembers_of_pairwise s.pairwise_members_encode fun m hm => ?_,
    required_eq_ok.2 ⟨_, ?_, htarget⟩, required_eq_ok.2 ⟨_, ?_, hattack⟩,
    optional_of_map nullable_decodeString_str ?_, optional_of_lookup ?_ |>.trans hmode⟩
  · simp only [hmembers, List.mem_append, List.mem_cons, List.not_mem_nil, or_false, mem_member?,
      Option.mem_def, Option.map_eq_some_iff] at hm
    obtain (rfl | ⟨_, ⟨text, -, rfl⟩, rfl⟩) | rfl | rfl := hm
    · exact admits_of_decode rfl rfl hattack
    · exact admits_of_decode rfl rfl (nullable_decodeString_str text)
    · exact admits_of_decode rfl rfl hmode
    · exact admits_of_decode rfl rfl htarget
  all_goals simp [hmembers, List.lookup_append, List.lookup_cons]

end Specs

/-! ## Statuses -/

namespace Status

/-- The names of the members of a status's document are in order. -/
theorem pairwise_members_encode (s : Status) :
    s.encode.members.Pairwise fun a b => a.1 < b.1 := by
  have hnames : (s.encode.members.map Prod.fst).Sublist
      (["conditions"] ++ ["lastRunTime"] ++ ["message"] ++ ["phase"]) := by
    simp only [members_encode, List.map_append]
    exact (((names_member?.append names_member?).append names_member?).append names_member?)
  exact List.pairwise_map.1 (List.Pairwise.sublist hnames (by decide))

/-- A status is read back from its document. -/
theorem decode_encode (source : Source) (s : Status) : decode source s.encode = .ok s := by
  have hencode : s.encode = .obj s.encode.members := rfl
  rw [hencode, decode_obj]
  refine ⟨checkMembers_of_pairwise s.pairwise_members_encode
      fun m hm => (of_mem_members_encode hm).2,
    optional_of_map Phase.decodeRecorded_encode ?_, optional_of_map nullable_decodeTime_encode ?_,
    optional_of_map nullable_decodeString_str ?_, ?_⟩
  iterate 3 simp [members_encode, List.lookup_append]
  -- An empty list of conditions is left out, and what is left out is read as an empty list.
  have hlookup : s.encode.members.lookup "conditions" = s.conditionsDocument? := by
    simp [members_encode, List.lookup_append]
  cases hdocument : s.conditionsDocument? with
  | none =>
    have hnil : s.conditions = [] := by simpa [conditionsDocument?] using hdocument
    simp [Json.optional, hlookup, hdocument, hnil]
  | some j => rw [optional_of_lookup (hlookup.trans hdocument), decode_conditionsDocument hdocument]

end Status

/-! ## Plain documents -/

theorem Labels.plain_encode (labels : Labels) : labels.encode.Plain := by
  refine .obj (fun m hm => ?_) (List.pairwise_map.2 labels.sorted)
  obtain ⟨e, -, rfl⟩ := List.mem_map.1 hm
  exact .str e.2

theorem Target.plain_encode (t : Target) : t.encode.Plain := by
  refine .obj ?_ (List.pairwise_map.1 (by decide : ["labelSelector", "namespace"].Pairwise (· < ·)))
  simp only [List.forall_mem_cons]
  exact ⟨t.labels.plain_encode, .str _, List.forall_mem_nil _⟩

theorem AttackKind.plain_encode (k : AttackKind) : k.encode.Plain := by
  refine .obj ?_ (List.pairwise_singleton ..)
  simp only [List.forall_mem_cons]
  exact ⟨.str _, List.forall_mem_nil _⟩

theorem Spec.plain_encode (s : Spec) : s.encode.Plain := by
  refine .obj (fun m hm => ?_) s.pairwise_members_encode
  simp only [List.mem_append, List.mem_cons, List.not_mem_nil, or_false, mem_member?,
    Option.mem_def, Option.map_eq_some_iff] at hm
  obtain (rfl | ⟨_, ⟨text, -, rfl⟩, rfl⟩) | rfl | rfl := hm
  · exact s.attack.plain_encode
  · exact .str text
  · exact .str _
  · exact s.target.plain_encode

theorem Condition.plain_encode (c : Condition) : c.encode.Plain := by
  refine .obj ?_ (List.pairwise_map.1 (by decide : ["lastTransitionTime", "message", "reason",
    "status", "type"].Pairwise (· < ·)))
  simp only [List.forall_mem_cons]
  exact ⟨.str _, .str _, .str _, .str _, .str _, List.forall_mem_nil _⟩

theorem Status.plain_encode (s : Status) : s.encode.Plain := by
  refine .obj (fun m hm => ?_) s.pairwise_members_encode
  simp only [List.mem_append, mem_member?, Option.mem_def, Option.map_eq_some_iff] at hm
  obtain ((⟨j, hj, rfl⟩ | ⟨_, ⟨lastRun, -, rfl⟩, rfl⟩) | ⟨_, ⟨message, -, rfl⟩, rfl⟩) |
    ⟨_, ⟨phase, -, rfl⟩, rfl⟩ := hm
  · rw [of_mem_conditionsDocument? hj]
    refine .arr fun j hj => ?_
    obtain ⟨c, -, rfl⟩ := List.mem_map.1 hj
    exact c.plain_encode
  · exact .str _
  · exact .str _
  · exact .str _

/-! ## Decoded attacks -/

namespace Json

variable {α : Type} {a : α}

/-- What is decoded as a record has been built of its fields. -/
theorem exists_build_of_decodeRecord {shape : Shape} {build : Parts → Decoded α} {source : Source}
    {j : Json} (h : decodeRecord shape build source j = .ok a) : ∃ parts, build parts = .ok a := by
  cases j with
  | obj ms => exact ⟨_, (decodeRecord_obj.1 h).2⟩
  | arr items =>
    obtain ⟨b, hbuild, hrest⟩ := bind_eq_ok.1 h
    obtain ⟨-, hb⟩ := check_bind_eq_ok.1 hrest
    cases hb
    exact ⟨_, hbuild⟩
  | null | bool | num | str | fault => cases h

/-- A field that has to be there has been decoded from something. -/
theorem exists_of_required {shape : Shape} {parts : Parts} {index : Nat} {name : String}
    {decode : Json → Decoded α} (h : shape.required parts index name decode = .ok a) :
    ∃ j, decode j = .ok a := by
  unfold Shape.required at h
  split at h <;> split at h
  · exact ⟨_, h⟩
  · cases h
  · exact ⟨_, h⟩
  · cases h

end Json

/-- A name is not kept as that of an unsupported attack if it is the name of the supported one. -/
theorem AttackKind.ne_of_decodeName {j : Json} {k : AttackKind} (h : decodeName j = .ok k) :
    k ≠ .unsupported "pod-kill" := by
  obtain ⟨name, -, hk⟩ := bind_eq_ok.1 h
  cases hk
  unfold ofText
  split
  next => nofun
  next hname => exact fun heq => hname (unsupported.inj heq)

theorem Spec.attack_ne_of_decode {source : Source} {j : Json} {s : Spec}
    (h : decode source j = .ok s) : s.attack ≠ .unsupported "pod-kill" := by
  obtain ⟨parts, hbuild⟩ := exists_build_of_decodeRecord h
  simp only [bind_eq_ok] at hbuild
  obtain ⟨target, -, attack, hattack, duration, -, mode, -, ⟨⟩⟩ := hbuild
  -- Down to the document of the name, which is the only place where an attack comes from.
  obtain ⟨attackDocument, hattack⟩ := exists_of_required hattack
  obtain ⟨parts, hattack⟩ := exists_build_of_decodeRecord hattack
  obtain ⟨nameDocument, hname⟩ := exists_of_required hattack
  exact AttackKind.ne_of_decodeName hname

/-! ## Round trips -/

/-- A value is read back from its document, in memory and as a text, and the document that is
    then made of it is the same again. -/
structure RoundTrips {α : Type} (decode : Source → Json → Decoded α) (encode : α → Json)
    (a : α) : Prop where
  value : decodeValue decode (encode a) = .ok a
  text : decodeText decode (encode a).print = .ok a
  again : (decodeValue decode (encode a)).map encode = .ok (encode a)

theorem RoundTrips.of_decode {α : Type} {decode : Source → Json → Decoded α} {encode : α → Json}
    {a : α} (hplain : (encode a).Plain) (h : ∀ source, decode source (encode a) = .ok a) :
    RoundTrips decode encode a where
  value := by rw [decodeValue_of_plain hplain, h]
  text := by rw [hplain.decodeText_print, h]
  again := by
    rw [decodeValue_of_plain hplain, h]
    rfl

/-- Specs and statuses are read back from their documents and from the texts of these, but for
    specs with an unsupported attack of the supported name. Whatever has been decoded, and from
    whatever document, is read back. -/
theorem wire_round_trip :
    (∀ s : Spec, s.attack ≠ .unsupported "pod-kill" → RoundTrips Spec.decode Spec.encode s) ∧
    (∀ s : Status, RoundTrips Status.decode Status.encode s) ∧
    (∀ (source : Source) (j : Json) (s : Spec),
      Spec.decode source j = .ok s → RoundTrips Spec.decode Spec.encode s) ∧
    (∀ (source : Source) (j : Json) (s : Status),
      Status.decode source j = .ok s → RoundTrips Status.decode Status.encode s) := by
  have hspec (s : Spec) (h : s.attack ≠ .unsupported "pod-kill") :
      RoundTrips Spec.decode Spec.encode s :=
    .of_decode s.plain_encode fun source => Spec.decode_encode source h
  have hstatus (s : Status) : RoundTrips Status.decode Status.encode s :=
    .of_decode s.plain_encode fun source => s.decode_encode source
  exact ⟨hspec, hstatus, fun _ _ s h => hspec s (Spec.attack_ne_of_decode h),
    fun _ _ s _ => hstatus s⟩

/-- A spec and a status that are read with all leniency: the mode is missing, the phase is not
    known, the message is `null`, and the leap second is given an hour behind. -/
theorem wire_round_trip_lenient :
    let target : Target := ⟨"apps", ⟨[("app", "web")], List.pairwise_singleton ..⟩⟩
    let loss : Spec := ⟨target, .unsupported "network-loss", some "1h 30m", .recurring⟩
    let kill : Spec := ⟨target, .podKill, none, .oneShot⟩
    let early : Instant := ⟨{ year := -262143, month := 1, day := 1 },
      { hour := 0, minute := 0, second := 0, nano := 1 }⟩
    let leap : Instant := ⟨{ year := 2016, month := 12, day := 31 },
      { hour := 23, minute := 59, second := 60, nano := 500000000 }⟩
    let condition : Condition := ⟨"Progressing", .no, "AttackFailed", "line\nbreak", leap⟩
    let failed : Status := ⟨some .failed, some early, some "\"", [condition]⟩
    let paused : Status := ⟨none, some leap, none, []⟩
    let killDocument : Json := .obj [("target", .arr [.str "apps", .obj [("app", .str "web")]]),
      ("attack", .obj [("type", .str "pod-kill")]), ("owner", .null)]
    let pausedDocument : Json := .obj [("phase", .str "Paused"), ("message", .null),
      ("lastRunTime", .str "2016-12-31 22:59:60.50-01:00")]
    (loss.attack ≠ .unsupported "pod-kill" ∧ RoundTrips Spec.decode Spec.encode loss) ∧
    RoundTrips Status.decode Status.encode failed ∧
    (Spec.decode .value killDocument = .ok kill ∧ RoundTrips Spec.decode Spec.encode kill) ∧
    Status.decode .text pausedDocument = .ok paused ∧
      RoundTrips Status.decode Status.encode paused := by
  have hattack : AttackKind.unsupported "network-loss" ≠ .unsupported "pod-kill" := by decide
  obtain ⟨hspec, hstatus, hspecs, hstatuses⟩ := wire_round_trip
  exact ⟨⟨hattack, hspec _ hattack⟩, hstatus _, (and_iff_left_of_imp (hspecs .value _ _)).2 rfl,
    (and_iff_left_of_imp (hstatuses .text _ _)).2 rfl⟩

end ChaosController
