import Framewalk.ResultsView
import Std.Data.ExtTreeMap
import Std.Data.ExtTreeSet

/-!
# Breakpoints, variable objects and features

The registries that `^done` payloads and breakpoint notifications are routed
into.
-/

namespace Framewalk

open ResultsView

structure BreakpointLocation where
  number : Option String
  addr : Option String
  func : Option String
  file : Option String
  fullname : Option String
  line : Option UInt32
  enabled : Bool
  deriving DecidableEq

def BreakpointLocation.fromResults (results : Results) : BreakpointLocation where
  number := getStr results "number"
  addr := getStr results "addr"
  func := getStr results "func"
  file := getStr results "file"
  fullname := getStr results "fullname"
  line := getU32 results "line"
  enabled := (getBool results "enabled").getD true

abbrev BreakpointId := String

structure Breakpoint where
  id : BreakpointId
  kind : Option String
  disp : Option String
  enabled : Bool
  times : Option UInt32
  locations : List BreakpointLocation
  deriving DecidableEq

def extractLocations (tuple : Results) : List BreakpointLocation :=
  match getList tuple "locations" with
  | some (.values items) =>
      items.filterMap fun
        | .tuple entries => some (.fromResults entries)
        | _ => none
  | _ => []

structure BreakpointRegistry where
  byId : Std.ExtTreeMap BreakpointId Breakpoint

namespace BreakpointRegistry

def empty : BreakpointRegistry :=
  ⟨∅⟩

/-- A breakpoint without a location list is its own only location. -/
def upsertFromBkptTuple (registry : BreakpointRegistry) (tuple : Results) : BreakpointRegistry :=
  match getStr tuple "number" with
  | none => registry
  | some id =>
      let locations := extractLocations tuple
      ⟨registry.byId.insert id
        { id
          kind := getStr tuple "type"
          disp := getStr tuple "disp"
          enabled := (getBool tuple "enabled").getD true
          times := getU32 tuple "times"
          locations := if locations.isEmpty then [.fromResults tuple] else locations }⟩

def onBreakpointCreated (registry : BreakpointRegistry) (results : Results) :
    BreakpointRegistry :=
  match getTuple results "bkpt" with
  | some tuple => registry.upsertFromBkptTuple tuple
  | none => registry

def onBreakpointModified (registry : BreakpointRegistry) (results : Results) :
    BreakpointRegistry :=
  match getTuple results "bkpt" with
  | some tuple => registry.upsertFromBkptTuple tuple
  | none => registry

def onBreakpointDeleted (registry : BreakpointRegistry) (results : Results) :
    BreakpointRegistry :=
  match getStr results "id" with
  | some id => ⟨registry.byId.erase id⟩
  | none => registry

end BreakpointRegistry

abbrev VarObjName := String

structure VarObj where
  name : VarObjName
  expression : Option String
  typeName : Option String
  value : Option String
  numchild : Option UInt32
  inScope : Option Bool
  deriving DecidableEq

def VarObj.new (name : VarObjName) : VarObj :=
  ⟨name, none, none, none, none, none⟩

structure VarObjRegistry where
  byName : Std.ExtTreeMap VarObjName VarObj

namespace VarObjRegistry

def empty : VarObjRegistry :=
  ⟨∅⟩

def onVarCreate (registry : VarObjRegistry) (results : Results) (expression : Option String) :
    VarObjRegistry :=
  match getStr results "name" with
  | none => registry
  | some name =>
      ⟨registry.byName.insert name
        { VarObj.new name with
          expression
          typeName := getStr results "type"
          value := getStr results "value"
          numchild := getU32 results "numchild" }⟩

/-- One entry of a change list: the reported fields replace the old ones. -/
def updateEntry (registry : VarObjRegistry) : Value → VarObjRegistry
  | .tuple entries =>
      match getStr entries "name" with
      | none => registry
      | some name =>
          ⟨registry.byName.alter name fun found =>
            let varobj := found.getD (.new name)
            some { varobj with
              value := (getStr entries "value").or varobj.value
              inScope := (getBool entries "in_scope").or varobj.inScope
              typeName := (getStr entries "new_type").or varobj.typeName }⟩
  | _ => registry

def onVarUpdate (registry : VarObjRegistry) (results : Results) : VarObjRegistry :=
  match getList results "changelist" with
  | some (.values items) => items.foldl updateEntry registry
  | _ => registry

def onVarDelete (registry : VarObjRegistry) (name : String) : VarObjRegistry :=
  ⟨registry.byName.erase name⟩

end VarObjRegistry

structure FeatureSet where
  features : Std.ExtTreeSet String
  targetFeatures : Std.ExtTreeSet String

namespace FeatureSet

def empty : FeatureSet :=
  ⟨∅, ∅⟩

/-- The constants of a list of values. -/
def extractStringList (results : Results) (key : String) : Std.ExtTreeSet String :=
  match getList results key with
  | some (.values items) =>
      .ofList <| items.filterMap fun
        | .const text => some text
        | _ => none
  | _ => ∅

def onListFeatures (features : FeatureSet) (results : Results) : FeatureSet :=
  { features with features := extractStringList results "features" }

def onListTargetFeatures (features : FeatureSet) (results : Results) : FeatureSet :=
  { features with targetFeatures := extractStringList results "features" }

def invalidateTargetFeatures (features : FeatureSet) : FeatureSet :=
  { features with targetFeatures := ∅ }

end FeatureSet

end Framewalk
