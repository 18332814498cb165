/-
  ChaosController.Experiment

  The record of an experiment as the cluster stores it.
-/

import ChaosController.Experiment.Spec
import ChaosController.Experiment.Status

namespace ChaosController

/-- What the cluster knows of a record whatever its kind. -/
structure Metadata where
  name : Option String
  generateName : Option String
  «namespace» : Option String
  /-- Changes with every write to the record. -/
  resourceVersion : Option String
  uid : Option String
  generation : Option Int
  labels : Option Labels
deriving DecidableEq

/-- Metadata of nothing. -/
def Metadata.empty : Metadata := ⟨none, none, none, none, none, none, none⟩

/-- The record of an experiment. -/
structure Experiment where
  metadata : Metadata
  spec : Spec
  status : Option Status
deriving DecidableEq

namespace Experiment

/-- The API group and version of experiments. -/
def apiVersion : String := "chaos.shanto.dev/v1alpha1"

/-- The kind of records that experiments are. -/
def kind : String := "ChaosExperiment"

/-- A record with a name and a spec and nothing else. -/
def new (name : String) (spec : Spec) : Experiment :=
  ⟨{ Metadata.empty with name := some name }, spec, none⟩

/-- The name an experiment goes by: its own, or the one its name is generated from. -/
def name (e : Experiment) : String :=
  match e.metadata.name, e.metadata.generateName with
  | some n, _ => n
  | none, some n => n
  | none, none => ""

end Experiment

end ChaosController
