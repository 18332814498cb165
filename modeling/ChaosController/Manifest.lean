/-
  ChaosController.Manifest

  The definition of experiments that is installed in a cluster.

  It names the resource, tells what the columns of a listing show, and describes the records
  by a schema.
-/

import ChaosController.Experiment
import ChaosController.Yaml

namespace ChaosController

open Json

/-! ## Schemas -/

/-- What a schema says about a value whatever its kind. -/
structure Remark where
  description : Option String
  nullable : Bool

/-- A schema. -/
inductive Schema
  /-- A text, possibly in a format or out of a fixed set. -/
  | text (remark : Remark) (format : Option String) (values : List String)
      (default : Option String)
  | list (remark : Remark) (items : Schema)
  /-- Values by name. -/
  | map (remark : Remark) (values : Schema)
  | record (remark : Remark) (title : Option String) (fields : List (String × Schema))
      (required : List String)

namespace Schema

/-- A list of texts. -/
def texts (values : List String) : Json := .arr (values.map .str)

/-- A list of texts, unless it is empty. -/
def texts? (values : List String) : Option Json :=
  if values.isEmpty then none else some (texts values)

/-- The document of a remark's description. -/
def describe (r : Remark) : List (String × Json) := member? "description" (r.description.map .str)

/-- Whether a value may be null. -/
def nullability (r : Remark) : List (String × Json) :=
  member? "nullable" (if r.nullable then some (.bool true) else none)

mutual
/-- The document of a schema. -/
def encode : Schema → Json
  | text r format values default =>
    .obj (member? "default" (default.map .str) ++ describe r ++ member? "enum" (texts? values) ++
      member? "format" (format.map .str) ++ nullability r ++ [("type", .str "string")])
  | list r items =>
    .obj (describe r ++ [("items", encode items)] ++ nullability r ++ [("type", .str "array")])
  | map r values =>
    .obj ([("additionalProperties", encode values)] ++ describe r ++ nullability r ++
      [("type", .str "object")])
  | record r title fields required =>
    .obj (describe r ++ nullability r ++ [("properties", .obj (encodeFields fields))] ++
      member? "required" (texts? required) ++ member? "title" (title.map .str) ++
      [("type", .str "object")])
/-- The documents of the schemas of fields. -/
def encodeFields : List (String × Schema) → List (String × Json)
  | [] => []
  | (name, schema) :: rest => (name, encode schema) :: encodeFields rest
end

/-- A remark that only describes. -/
def note (description : String) : Remark := ⟨some description, false⟩

/-- A remark on a value that may be null. -/
def optionalNote (description : String) : Remark := ⟨some description, true⟩

/-- A text with a description. -/
def plain (description : String) : Schema := text (note description) none [] none

end Schema

namespace Manifest

open Schema

/-- The schema of an attack. -/
def attack : Schema :=
  .record (note "What to do to a selected pod") none
    [("type", plain "Attack kind; currently only \"pod-kill\" is supported")] ["type"]

/-- The schema of a target. -/
def target : Schema :=
  .record (note "Which pods the experiment may disrupt") none
    [("labelSelector", .map (note "Labels a pod must carry (all of them) to be a target")
        (.text ⟨none, false⟩ none [] none)),
      ("namespace", plain "Namespace the target pods live in")]
    ["labelSelector", "namespace"]

/-- The schema of a spec. -/
def spec : Schema :=
  .record (note "Specification for a ChaosExperiment") none
    [("attack", attack),
      ("duration", .text (optionalNote ("How long one run lasts, e.g. \"30s\", \"5m\", " ++
        "\"1h30m\"\n\nFor one-shot experiments this is the time between the attack and " ++
        "completion. For recurring experiments it is the period between attacks.")) none [] none),
      ("mode", .text (note "Execution mode (\"one-shot\" or \"recurring\")") none
        [Mode.oneShot.text, Mode.recurring.text] (some Mode.oneShot.text)),
      ("target", target)]
    ["attack", "target"]

/-- The schema of a condition. -/
def condition : Schema :=
  .record (note ("Kubernetes-style condition for status reporting\n\nWritten for external " ++
      "observability only; the controller never reads conditions back when deciding what to " ++
      "do.")) none
    [("lastTransitionTime",
        .text (note "Last time the condition transitioned") (some "date-time") [] none),
      ("message", plain "Human-readable message"),
      ("reason", plain "Machine-readable reason for the condition"),
      ("status", .text (note "Status of the condition (True, False, Unknown)") none
        ([Truth.yes, Truth.no, Truth.unknown].map Truth.text) none),
      ("type", plain "Type of condition (e.g., Progressing, Available, Degraded)")]
    ["lastTransitionTime", "message", "reason", "status", "type"]

/-- The schema of a status. -/
def status : Schema :=
  .record (optionalNote "Status for a ChaosExperiment") none
    [("conditions", .list (note "Conditions for external tooling") condition),
      ("lastRunTime", .text (optionalNote "When the most recent attack was executed")
        (some "date-time") [] none),
      ("message", .text (optionalNote "Human-readable description of the current condition")
        none [] none),
      ("phase", .text
        (optionalNote "Current phase; absent until the controller first sees the experiment")
        none ([Phase.pending, Phase.running, Phase.completed, Phase.failed].map Phase.text) none)]
    []

/-- The schema of a record. -/
def record : Schema :=
  .record (note "Auto-generated derived type for ChaosExperimentSpec via `CustomResource`")
    (some Experiment.kind) [("spec", spec), ("status", status)] ["spec"]

/-- A column of a listing: the name, the kind of its values, and where they are. -/
def column (name kind path : String) : Json :=
  .obj [("jsonPath", .str path), ("name", .str name), ("type", .str kind)]

/-- The columns of a listing. -/
def columns : List Json :=
  [column "Phase" "string" ".status.phase", column "Mode" "string" ".spec.mode",
    column "Attack" "string" ".spec.attack.type", column "Last Run" "date" ".status.lastRunTime",
    column "Age" "date" ".metadata.creationTimestamp"]

/-- The version of the resource. -/
def version : Json :=
  .obj [("additionalPrinterColumns", .arr columns), ("name", .str "v1alpha1"),
    ("schema", .obj [("openAPIV3Schema", record.encode)]), ("served", .bool true),
    ("storage", .bool true), ("subresources", .obj [("status", .obj [])])]

/-- The names of the resource. -/
def names : Json :=
  .obj [("categories", .arr []), ("kind", .str Experiment.kind),
    ("plural", .str "chaosexperiments"), ("shortNames", texts ["chaos"]),
    ("singular", .str "chaosexperiment")]

/-- The members of the definition. -/
def members : List (String × Json) :=
  [("apiVersion", .str "apiextensions.k8s.io/v1"), ("kind", .str "CustomResourceDefinition"),
    ("metadata", .obj [("name", .str "chaosexperiments.chaos.shanto.dev")]),
    ("spec", .obj [("group", .str "chaos.shanto.dev"), ("names", names),
      ("scope", .str "Namespaced"), ("versions", .arr [version])])]

/-- The definition. -/
def document : Json := .obj members

/-- The definition as YAML. -/
def yaml : String := Yaml.print members

end Manifest

end ChaosController
