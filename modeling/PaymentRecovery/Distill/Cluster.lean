import PaymentRecovery.Lib.Dict
import PaymentRecovery.Python.Builtins

/-!
# Clustering observations

Situations are sorted tuples of named features; observations are grouped by
their situation restricted to some of the names.
-/

namespace PaymentRecovery.Distill

open PaymentRecovery.Python PaymentRecovery.Lib

/-- An ordered tuple of (feature, value) string pairs. -/
abbrev Situation := List (String × String)

/-- The order of `sorted` on pairs of texts. -/
def pairLe (a b : String × String) : Prop := a.1 < b.1 ∨ (a.1 = b.1 ∧ a.2 ≤ b.2)

instance : DecidableRel pairLe := fun _ _ => inferInstanceAs (Decidable (_ ∨ _))

/-- `Situation.from_mapping`. -/
def Situation.fromMapping (mapping : List (String × String)) : Situation :=
  mapping.insertionSort pairLe

/-- A situation restricted to `featureNames`. -/
def Situation.project (situation : Situation) (featureNames : List String) : Situation :=
  situation.filter fun feature => feature.1 ∈ featureNames

/-- `as_dict().get(name)`, `key_dict()[name]`. -/
def Situation.get? (situation : Situation) (name : String) : Option String :=
  (situation.reverse.find? fun feature => feature.1 = name).map Prod.snd

/-- One handled case; `sourceId` identifies the originating trajectory. -/
structure Observation where
  situation : Situation
  action : String
  recovered : Bool
  sourceId : String

/-- Observations sharing a projected situation key. -/
structure Cluster where
  key : Situation
  support : Nat := 0
  actionCounts : Dict String Nat := .empty
  recoveredCount : Nat := 0
  sourceIds : List String := []

/-- The first of the heaviest elements. -/
def firstMax {α : Type} (weight : α → Nat) : List α → Option α
  | [] => none
  | a :: rest => some (rest.foldl (fun best x => if weight best < weight x then x else best) a)

namespace Cluster

/-- The action taken most often, of several the first one met. -/
def dominantAction (cluster : Cluster) : Except PyExc String :=
  match firstMax Prod.snd cluster.actionCounts.entries with
  | some (action, _) => .ok action
  | none => .error ⟨.valueError, "max() iterable argument is empty"⟩

/-- Fraction of the cluster that took the dominant action. -/
def actionAgreement (cluster : Cluster) : Except PyExc ℚ :=
  if cluster.support = 0 then .ok 0
  else do
    let dominant ← cluster.dominantAction
    return ((cluster.actionCounts.get? dominant).getD 0 : ℚ) / cluster.support

def recoveryRate (cluster : Cluster) : ℚ :=
  if cluster.support = 0 then 0 else (cluster.recoveredCount : ℚ) / cluster.support

/-- One more member. -/
def add (cluster : Cluster) (obs : Observation) : Cluster where
  key := cluster.key
  support := cluster.support + 1
  actionCounts := cluster.actionCounts.set obs.action
    ((cluster.actionCounts.get? obs.action).getD 0 + 1)
  recoveredCount := cluster.recoveredCount + obs.recovered.toNat
  sourceIds := cluster.sourceIds ++ [obs.sourceId]

end Cluster

/-- Group `observations` by their situation projected onto `keyFeatures`. -/
def clusterObservations (observations : List Observation) (keyFeatures : List String) :
    List Cluster :=
  let clusters : Dict Situation Cluster := observations.foldl (fun clusters obs =>
    let key := obs.situation.project keyFeatures
    clusters.set key (((clusters.get? key).getD { key := key }).add obs)) .empty
  clusters.values

end PaymentRecovery.Distill
