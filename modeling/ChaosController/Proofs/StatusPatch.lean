/-
  ChaosController.Proofs.StatusPatch

  Status writes over a connection to an API server.

  A status is sent as a merge patch that carries the version of its record, to the address of the
  record, which can be read whenever name and namespace are plain (`read_statusPath`). The server
  is taken to apply the patch only to a document of that version. The controller tells every
  status from the one before and leaves nothing of it out, so the patch has the effect of a
  replacement (`updates_replace_status`). A record that has no version is not written at all: no
  message with a status ever goes out without a version.
-/

import ChaosController.Api.Connection
import ChaosController.Proofs.Conduct
import ChaosController.Proofs.Deadline
import ChaosController.Proofs.MergePatch

namespace ChaosController.Api

open Json

/-! ## Patches on the server -/

/-- The version that a document carries in its metadata. -/
def versionOf? (document : Json) : Option String :=
  match (document.get? "metadata").map Metadata.kept with
  | some (.ok metadata) => metadata.resourceVersion
  | _ => none

/-- What becomes of a stored document by a patch. The server applies the patch if both carry the
    same version. -/
def patched? (stored patch : Json) : Option Json :=
  if versionOf? patch = versionOf? stored then some (stored.mergePatch patch) else none

@[simp] theorem versionOf?_statusPatch (version : String) (status : Status) :
    versionOf? (statusPatch version status) = some version := rfl

/-- The version of a document is that of the record that it decodes to. -/
theorem versionOf?_of_decode {source : Source} {ms : List (String × Json)} {base : Experiment}
    (h : Experiment.decode source (.obj ms) = .ok base) :
    versionOf? (.obj ms) = base.version? := by
  obtain ⟨-, hmetadata, -⟩ := Experiment.decode_obj.1 h
  obtain ⟨j, hj, hmetadata⟩ := required_eq_ok.1 hmetadata
  obtain ⟨-, hkept⟩ := check_bind_eq_ok.1 hmetadata
  simp only [versionOf?, get?, hj, Option.map_some, hkept]
  rfl

/-- Only an object carries a version. -/
theorem exists_obj_of_versionOf? {document : Json} {version : String}
    (h : versionOf? document = some version) : ∃ ms, document = .obj ms := by
  cases document with
  | obj ms => exact ⟨ms, rfl⟩
  | null | bool | num | str | arr | fault => cases h

/-- The members of a document that no status write sets, and those of its metadata. -/
def untouched (document : Json) : List (String × Json) × List (String × Json) :=
  (removeMember "status" (removeMember "metadata" document.members),
    removeMember "resourceVersion" ((document.get? "metadata").getD .null).members)

/-- A status write leaves everything but the status and the version as it is. -/
theorem untouched_mergePatch (ms : List (String × Json)) (version : String) (status : Status) :
    untouched ((Json.obj ms).mergePatch (statusPatch version status)) = untouched (.obj ms) := by
  rw [mergePatch_statusPatch]
  simp [untouched, members, get?]

variable {source : Source} {stored merged : Json} {base : Experiment} {status : Status}
  {version : String}

/-- The server accepts a status for the version that it stores. -/
theorem patched?_of_decode {ms : List (String × Json)}
    (h : Experiment.decode source (.obj ms) = .ok base) (hversion : base.version? = some version) :
    patched? (.obj ms) (statusPatch version status) =
      some ((Json.obj ms).mergePatch (statusPatch version status)) := by
  rw [patched?, versionOf?_statusPatch, versionOf?_of_decode h, hversion, if_pos rfl]

/-- A status that the server accepts takes the place of the stored one, if it has
    everything that the stored one has; nothing else of the document is touched. -/
theorem decode_patched (h : Experiment.decode source stored = .ok base)
    (hlaid : status.laidOver (base.status.getD .empty) = status)
    (hpatched : patched? stored (statusPatch version status) = some merged) :
    Experiment.decode source merged = .ok (base.stamped status version) ∧
      untouched merged = untouched stored := by
  unfold patched? at hpatched
  split at hpatched
  next hversion =>
    obtain ⟨ms, rfl⟩ := exists_obj_of_versionOf? hversion.symm
    cases hpatched
    exact ⟨Experiment.decode_mergePatch version h hlaid, untouched_mergePatch ms version status⟩
  next => cases hpatched

/-! ## Addresses -/

/-- A path is read up to the question mark that ends it. -/
theorem readPath_append {path : List Char} (h : ∀ c ∈ path, Address.isPathChar c = true) :
    Address.readPath (path ++ ['?']) = .ok (path, some []) := by
  induction path with
  | nil => rfl
  | cons c path ih =>
    obtain ⟨hc, h⟩ := List.forall_mem_cons.1 h
    have hquestion : c ≠ '?' := by
      rintro rfl
      exact absurd hc (by decide)
    have hnumber : c ≠ '#' := by
      rintro rfl
      exact absurd hc (by decide)
    rw [List.cons_append, Address.readPath, if_neg hquestion, if_neg hnumber, if_pos hc, ih h]
    rfl

/-- The path of the status of an experiment. -/
def statusPath (ns name : String) : String := experimentsPath ns ++ "/" ++ name ++ "/status"

/-- A text that may stand in a path as it is. -/
def IsPathPart (part : String) : Prop := ∀ c ∈ part.toList, Address.isPathChar c = true

instance : DecidablePred IsPathPart := fun part =>
  decidable_of_iff (part.toList.all Address.isPathChar = true) List.all_eq_true

theorem IsPathPart.append {a b : String} (ha : IsPathPart a) (hb : IsPathPart b) :
    IsPathPart (a ++ b) := by
  unfold IsPathPart
  rw [String.toList_append]
  exact List.forall_mem_append.2 ⟨ha, hb⟩

/-- The address of a status can be read if namespace and name may stand in a path and the whole is
    not too long. -/
theorem read_statusPath {ns name : String} (hns : IsPathPart ns) (hname : IsPathPart name)
    (hlength : (statusPath ns name ++ "?").utf8ByteSize ≤ Address.maxLength) :
    Address.read (statusPath ns name ++ "?") = .ok ⟨statusPath ns name, some ""⟩ := by
  have hexperiments : IsPathPart (experimentsPath ns) :=
    (IsPathPart.append (by decide) hns).append (by decide)
  have hpath : IsPathPart (statusPath ns name) :=
    ((hexperiments.append (by decide)).append hname).append (by decide)
  have hchars : (statusPath ns name ++ "?").toList = (statusPath ns name).toList ++ ['?'] :=
    String.toList_append
  rw [Address.read, if_neg (Nat.not_lt.2 hlength), hchars, readPath_append hpath]
  simp [bind, Except.bind, pure, Except.pure]

/-! ## Messages -/

/-- A message that writes a status only under the version of a record. -/
def CarriesVersion (m : Message) : Prop :=
  ∀ body ∈ m.body, (body.get? "status").isSome → (versionOf? body).isSome

theorem carriesVersion_of_body {m : Message} {body : Json} (hbody : m.body = some body)
    (h : body.get? "status" = none) : CarriesVersion m := by
  intro b hb hstatus
  cases hbody.symm.trans hb
  rw [h] at hstatus
  cases hstatus

theorem carriesVersion_of_no_body {m : Message} (hbody : m.body = none) : CarriesVersion m := by
  intro b hb
  cases hbody.symm.trans hb

theorem method_of_mergeMessage {path : String} {body : Json} {m : Message}
    (h : mergeMessage path body = .ok m) : m.method = .patch ∧ m.body = some body := by
  obtain ⟨address, -, ⟨⟩⟩ := bind_eq_ok.1 h
  exact ⟨rfl, rfl⟩

/-- A status write is a patch that carries the version. -/
theorem method_of_updateMessage {ns name : String} {m : Message}
    (h : updateMessage ns name version status = .ok m) :
    m.method = .patch ∧ m.body = some (statusPatch version status) :=
  method_of_mergeMessage (check_bind_eq_ok.1 h).2

/-- A status write is sent if the record has a name and the address of its status can be read. -/
theorem updateMessage_of_read {ns name : String} {address : Address} (hname : name ≠ "")
    (h : Address.read (statusPath ns name ++ "?") = .ok address) :
    updateMessage ns name version status =
      .ok ⟨.patch, address, some "application/json", some "application/merge-patch+json",
        some (statusPatch version status)⟩ := by
  have hcheck : checkName name = .ok () := if_neg hname
  unfold statusPath at h
  simp only [updateMessage, hcheck, mergeMessage, h]
  rfl

/-- No event is taken for a status. -/
theorem PostedEvent.carriesVersion {p : PostedEvent} {m : Message} (h : p.message = .ok m) :
    CarriesVersion m := by
  have hstatus : p.encode.get? "status" = none := by
    simp [PostedEvent.encode, get?, List.lookup_append, List.lookup_cons]
  unfold PostedEvent.message at h
  split at h
  next =>
    obtain ⟨address, -, ⟨⟩⟩ := bind_eq_ok.1 h
    exact carriesVersion_of_body rfl hstatus
  next =>
    exact carriesVersion_of_body (method_of_mergeMessage (check_bind_eq_ok.1 h).2).2 hstatus

namespace Connection

/-! ## What is sent -/

/-- Exactly the message of a call is sent, if it could be built. -/
theorem sent_call {α : Type} (c : Connection) (message : Except RequestError Message)
    (read : Response → Except Error α) :
    (c.call message read).2.sent = c.sent ++ message.toOption.toList := by
  cases message <;> simp [call, send, Except.toOption]

/-- What has been sent over a connection since it was as `c` carries a version, if it writes a
    status. -/
def KeepsVersions (c d : Connection) : Prop := ∀ m ∈ d.sent, m ∈ c.sent ∨ CarriesVersion m

namespace KeepsVersions

variable {c d : Connection}

theorem send (h : c.KeepsVersions d) {m : Message} (hm : CarriesVersion m) :
    c.KeepsVersions (d.send m).2 := by
  intro n hn
  obtain hn | hn := List.mem_append.1 hn
  · exact h n hn
  · exact .inr (List.mem_singleton.1 hn ▸ hm)

theorem call {α : Type} (h : c.KeepsVersions d) {message : Except RequestError Message}
    {read : Response → Except Error α} (hmessage : ∀ m, message = .ok m → CarriesVersion m) :
    c.KeepsVersions (d.call message read).2 := by
  cases message with
  | error e => exact h
  | ok m => exact h.send (hmessage m rfl)

theorem publish (h : c.KeepsVersions d) (event : Event) : c.KeepsVersions (d.publish event) := by
  simp only [Connection.publish]
  split
  next => exact h
  next m hm =>
    have hsent := h.send (PostedEvent.carriesVersion hm)
    split <;> exact hsent

/-- Whatever is asked for, a status is sent only under a version. -/
theorem answer (h : c.KeepsVersions d) (r : Request) : c.KeepsVersions (d.answer r).2 := by
  cases r with
  | get ns name =>
    refine h.call fun m hm => carriesVersion_of_no_body ?_
    obtain ⟨address, -, ⟨⟩⟩ := bind_eq_ok.1 (check_bind_eq_ok.1 hm).2
    rfl
  | list ns selector =>
    refine h.call fun m hm => carriesVersion_of_no_body ?_
    obtain ⟨address, -, ⟨⟩⟩ := bind_eq_ok.1 hm
    rfl
  | pick count => exact h
  | delete ns name =>
    refine h.call fun m hm => ?_
    obtain ⟨address, -, ⟨⟩⟩ := bind_eq_ok.1 (check_bind_eq_ok.1 hm).2
    exact carriesVersion_of_body rfl rfl
  -- The version is looked up before the message is built.
  | update base status =>
    simp only [Connection.answer, update]
    split
    next => exact h
    next ns version _ =>
      refine h.call fun m hm body hbody _ => ?_
      rw [(method_of_updateMessage hm).2] at hbody
      cases hbody
      rfl
  | publish event =>
    simp only [Connection.answer]
    split
    · exact h.publish event
    · exact h

theorem answerAtOnce (h : c.KeepsVersions d) (r : Request) :
    c.KeepsVersions (d.answerAtOnce r).2 := by
  simp only [Connection.answerAtOnce]
  split
  · exact h.answer r
  · exact h

end KeepsVersions

/-- No run over a connection sends a status without a version. -/
theorem keepsVersions_reconcile (settings : Settings) (trigger : Experiment) (c : Connection) :
    c.KeepsVersions (c.reconcile settings trigger).2 := by
  have hstart : c.KeepsVersions c := fun _ => .inl
  simp only [reconcile, Prod.map_snd, id]
  split
  · exact Invocation.run_invariant (fun _ r h => h.answerAtOnce r) _ hstart
  · exact Invocation.run_invariant (fun _ r h => h.answer r) _ hstart

/-- A status write is refused before anything is sent, if the record cannot be found again or its
    version is not known. -/
theorem answer_update_of_missing (c : Connection) {e : Experiment} (s : Status)
    (h : e.metadata.namespace = none ∨ e.version? = none) :
    ∃ message, c.answer (.update e s) = (.error (.internal "update_status" message), c) := by
  cases hns : e.metadata.namespace with
  | none =>
    refine ⟨e.name ++ " has no namespace", ?_⟩
    simp only [answer, update, updateTarget, hns]
  | some ns =>
    have hversion : e.metadata.resourceVersion = none := h.resolve_left (by simp [hns])
    refine ⟨e.name ++ " has no resourceVersion", ?_⟩
    simp only [answer, update, updateTarget, hns, hversion]

theorem sent_answer_update (c : Connection) {ns : String} (hns : base.metadata.namespace = some ns)
    (hversion : base.version? = some version) (status : Status) :
    (c.answer (.update base status)).2.sent =
      c.sent ++ (updateMessage ns base.name version status).toOption.toList := by
  have hversion : base.metadata.resourceVersion = some version := hversion
  simp only [answer, update, updateTarget, hns, hversion]
  exact sent_call ..

end Connection

/-! ## Replacement -/

/-- A status write of the controller over a connection replaces the status of the record. A record
    that has no namespace or no version is refused before anything is sent, and no run ever sends a
    status without a version. For any other record that the controller writes to, a patch with its
    version and the status is sent to the address of its status, if the record has a name and the
    address can be read; it can if namespace and name may stand in a path and are not too long.
    Otherwise nothing is sent. If the server stores a document that decodes to the record, it
    accepts the patch, and what it then stores decodes to the record with the new status; the other
    members of the document and of its metadata stay as they are. -/
theorem updates_replace_status {settings : Settings} {trigger : Experiment} {now : Instant}
    {t : Trace} {base : Experiment} {status : Status}
    {resume : Except Error Experiment → Invocation (Except Error Revisit)}
    (h : (reconcileAt settings trigger now).run.Reaches t (.ask (.update base status) resume)) :
    (∀ (c : Connection) (e : Experiment) (s : Status),
      e.metadata.namespace = none ∨ e.version? = none →
        ∃ message, c.answer (.update e s) = (.error (.internal "update_status" message), c)) ∧
    (∀ settings trigger (c : Connection), ∀ m ∈ (c.reconcile settings trigger).2.sent,
      m ∈ c.sent ∨ CarriesVersion m) ∧
    ∀ ns version, base.metadata.namespace = some ns → base.version? = some version →
      (∀ address, base.name ≠ "" → Address.read (statusPath ns base.name ++ "?") = .ok address →
        ∀ c : Connection, (c.answer (.update base status)).2.sent = c.sent ++
          [⟨.patch, address, some "application/json", some "application/merge-patch+json",
            some (statusPatch version status)⟩]) ∧
      (IsPathPart ns → IsPathPart base.name →
        (statusPath ns base.name ++ "?").utf8ByteSize ≤ Address.maxLength →
          Address.read (statusPath ns base.name ++ "?") =
            .ok ⟨statusPath ns base.name, some ""⟩) ∧
      (∀ c : Connection, (c.answer (.update base status)).2.sent =
        c.sent ++ (updateMessage ns base.name version status).toOption.toList) ∧
      (∀ m, updateMessage ns base.name version status = .ok m →
        m.method = .patch ∧ m.body = some (statusPatch version status)) ∧
      ∀ source stored, Experiment.decode source stored = .ok base →
        ((∃ ms, stored = .obj ms) → (patched? stored (statusPatch version status)).isSome) ∧
        ∀ merged, patched? stored (statusPatch version status) = some merged →
          Experiment.decode source merged = .ok { base with status := some status } ∧
            untouched merged = untouched stored := by
  obtain ⟨read, -, hwrites, -⟩ := Reconcile.lawful_of_reaches h
  have hlaid := hwrites.derived.laidOver_eq
  refine ⟨fun c e s => c.answer_update_of_missing s, Connection.keepsVersions_reconcile,
    fun ns version hns hversion => ?_⟩
  have hsent (c : Connection) := c.sent_answer_update hns hversion status
  refine ⟨fun address hname hread c => ?_, read_statusPath, hsent, fun m => method_of_updateMessage,
    fun source stored hstored => ⟨?_, fun merged hm => ?_⟩⟩
  · rw [hsent, updateMessage_of_read hname hread]
    rfl
  · rintro ⟨ms, rfl⟩
    rw [patched?_of_decode hstored hversion]
    rfl
  · have hpatched := decode_patched hstored hlaid hm
    rwa [Experiment.stamped, Experiment.versioned_of_version hversion] at hpatched

/-- A document of the experiment that kills web pods of a lab. Its status has a phase and a field
    that the controller does not know, and a time that is `null`. -/
def sampleDocument : Json :=
  .obj [("apiVersion", .str "chaos.shanto.dev/v1alpha1"), ("kind", .str "ChaosExperiment"),
    ("metadata", .obj [("annotations", .null), ("name", .str "sample"),
      ("namespace", .str "lab"), ("resourceVersion", .str "1")]),
    ("spec", .obj [("attack", .obj [("type", .str "pod-kill")]),
      ("target", .obj [("labelSelector", .obj [("app", .str "web")]),
        ("namespace", .str "lab")])]),
    ("status", .obj [("lastRunTime", .null), ("observedGeneration", .ofNat 3),
      ("phase", .str "Paused")])]

/-- The first write to a record whose document has an unknown phase. The patch is sent to the
    address of its status; the phase gives way, and the unknown field stays. -/
theorem updates_replace_status_unknown :
    ∃ status merged, Experiment.decode .text sampleDocument =
        .ok (.sample .oneShot none none none) ∧ status.phase = some .pending ∧
      (∀ c : Connection,
        (c.answer (.update (.sample .oneShot none none none) status)).2.sent = c.sent ++
          [⟨.patch,
            ⟨"/apis/chaos.shanto.dev/v1alpha1/namespaces/lab/chaosexperiments/sample/status",
              some ""⟩,
            some "application/json", some "application/merge-patch+json",
            some (statusPatch "1" status)⟩]) ∧
      patched? sampleDocument (statusPatch "1" status) = some merged ∧
      ((merged.get? "status").bind (get? "observedGeneration")).isSome ∧
      Experiment.decode .text merged =
        .ok { Experiment.sample .oneShot none none none with status := some status } ∧
      untouched merged = untouched sampleDocument := by
  have hdecode : Experiment.decode .text sampleDocument =
      .ok (.sample .oneShot none none none) := by
    rfl
  have hreaches : (reconcileAt .standard (.sample .oneShot none none none) (.sample 0)).run.Reaches
      [⟨.get "lab" "sample", .ok (some (.sample .oneShot none none none))⟩]
      (.ask (.update (.sample .oneShot none none none)
        (Reconcile.nextStatus (.sample .oneShot none none none) .pending .initialized
          "Experiment initialized and pending." (.sample 0))) _) :=
    .exchange (r := .get "lab" "sample") (Except.ok (some _)) .start
  obtain ⟨-, -, hwrite⟩ := updates_replace_status hreaches
  obtain ⟨hsent, hread, -, -, hreplaces⟩ := hwrite "lab" "1" rfl rfl
  obtain ⟨-, hmerged⟩ := hreplaces .text sampleDocument hdecode
  have haddress := hread (by decide) (by decide) (by decide)
  exact ⟨_, _, hdecode, rfl, hsent _ (by decide) haddress, rfl, rfl, hmerged _ rfl⟩

end ChaosController.Api
