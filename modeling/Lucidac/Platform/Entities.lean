import Lucidac.Block.CBlockConfig
import Lucidac.Block.MBlock
import Lucidac.Carrier.HardwareWrites
import Lucidac.Carrier.RouteCalibration
import Lucidac.Platform.FrontPanel

/-!
# The entities of a LUCIDAC

A LUCIDAC is a tree: the carrier with its clusters, its CTRL block and its front panel, and below
each cluster the blocks in its six slots.  Every slot may be empty.  The children of an entity are
listed by `get_child_entities` and found again by `get_child_entity`, which takes its decision from
the text of the identifier.
-/

namespace Lucidac.Platform

inductive Slot where
  | m0
  | m1
  | u
  | c
  | i
  | sh
deriving DecidableEq

namespace Slot

def entityId : Slot → String
  | .m0 => "M0"
  | .m1 => "M1"
  | .u => "U"
  | .c => "C"
  | .i => "I"
  | .sh => "SH"

/-- The order of `get_blocks`. -/
def all : List Slot := [.m0, .m1, .u, .c, .i, .sh]

abbrev Content : Slot → Type
  | .m0 | .m1 => MBlock
  | .u => UBlock
  | .c => CBlock
  | .i => IBlock
  | .sh => SHBlock

end Slot

structure Cluster where
  clusterIdx : BitVec 8
  blocks : (slot : Slot) → Option slot.Content

structure LUCIDAC where
  entityId : String
  clusters : List Cluster
  ctrlBlock : Option CTRLBlock
  frontPanel : Option FrontPanel
  adcChannels : Fin 8 → Int
  aclSelect : Fin 8 → ACL

/-- A position in the tree. -/
inductive Ref where
  | carrier
  | cluster (idx : Nat)
  | ctrlBlock
  | frontPanel
  | block (idx : Nat) (slot : Slot)
deriving DecidableEq

/-- What ends the program instead of an answer. -/
inductive Fault where
  | exception
  | outOfRange
  | absentBlock
  | unassigned
deriving DecidableEq

/-! ### Children -/

namespace Cluster

def entityId (s : Cluster) : String := toString s.clusterIdx.toNat

def getChildEntity (s : Cluster) (childId : String) : Option Slot :=
  let child (slot : Slot) : Option Slot := (s.blocks slot).map fun _ => slot
  if childId = "M0" then child .m0
  else if childId = "M1" then child .m1
  else if childId = "U" then child .u
  else if childId = "C" then child .c
  else if childId = "I" then child .i
  else if childId = "SH" then child .sh
  else none

/-- `get_child_entities`: the pointer of every slot, null for an empty one. -/
def getChildEntities (s : Cluster) : List (Option Slot) :=
  Slot.all.map fun slot => (s.blocks slot).map fun _ => slot

end Cluster

namespace LUCIDAC

def entityIdOf (s : LUCIDAC) : Ref → String
  | .carrier => s.entityId
  | .cluster idx => ((s.clusters[idx]?).map Cluster.entityId).getD ""
  | .ctrlBlock => "CTRL"
  | .frontPanel => "FP"
  | .block _ slot => slot.entityId

def carrierGetChildEntity (s : LUCIDAC) (childId : String) : Except Fault (Option Ref) :=
  if isNumber childId then
    match stoul childId with
    | none => .error .exception
    | some clusterIdx =>
      if s.clusters.length < clusterIdx then .ok none
      else if clusterIdx < s.clusters.length then .ok (some (.cluster clusterIdx))
      else .error .outOfRange
  else if childId = "CTRL" then .ok (s.ctrlBlock.map fun _ => .ctrlBlock)
  else .ok none

def lucidacGetChildEntity (s : LUCIDAC) (childId : String) : Except Fault (Option Ref) :=
  if childId = "FP" then .ok (s.frontPanel.map fun _ => .frontPanel)
  else s.carrierGetChildEntity childId

/-- `get_child_entity` of any entity; blocks and front panel have no children. -/
def getChildEntity (s : LUCIDAC) (ref : Ref) (childId : String) : Except Fault (Option Ref) :=
  match ref with
  | .carrier => s.lucidacGetChildEntity childId
  | .cluster idx => .ok (((s.clusters[idx]?).bind (·.getChildEntity childId)).map (.block idx))
  | .ctrlBlock | .frontPanel | .block _ _ => .ok none

def carrierGetChildEntities (s : LUCIDAC) : List Ref :=
  (List.range s.clusters.length).map .cluster ++ (s.ctrlBlock.map fun _ => Ref.ctrlBlock).toList

def lucidacGetChildEntities (s : LUCIDAC) : List Ref :=
  s.carrierGetChildEntities ++ (s.frontPanel.map fun _ => Ref.frontPanel).toList

def block (s : LUCIDAC) (idx : Nat) (slot : Slot) : Option slot.Content :=
  (s.clusters[idx]?).bind (·.blocks slot)

/-- Something stands at this position. -/
def Installed (s : LUCIDAC) : Ref → Prop
  | .carrier => True
  | .cluster idx => idx < s.clusters.length
  | .ctrlBlock => s.ctrlBlock.isSome
  | .frontPanel => s.frontPanel.isSome
  | .block idx slot => (s.block idx slot).isSome

/-- A LUCIDAC with its one cluster, no blocks and no front panel. -/
def bare : LUCIDAC :=
  ⟨"04-E9-E5-00-00-00", [⟨0, fun _ => none⟩], some ⟨.adc⟩, none, fun _ => -1, fun _ => .internal⟩

end LUCIDAC

end Lucidac.Platform
