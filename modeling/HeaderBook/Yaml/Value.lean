import HeaderBook.Text.Shortest
import HeaderBook.Yaml.Node
import HeaderBook.Yaml.Number
import HeaderBook.Yaml.Timestamp

/-!
# Values

A value is what a node denotes. Quoted scalars are texts; a plain scalar may be
absent, a truth value, a number or a timestamp, by its form. A mapping takes over
the pairs of the mappings that stand at its merge keys; its own pairs come after
them and so prevail.
-/

namespace HeaderBook.Yaml

/-- What a node denotes. -/
inductive Value where
  | null
  | bool (value : Bool)
  | int (value : Int)
  | float (value : Float)
  | text (value : CodeText)
  | timestamp (value : Timestamp)
  | binary (content : List UInt8)
  | sequence (items : List Value)
  | set (items : List Value)
  | mapping (pairs : List (Value × Value))

/-- The words for truth values. -/
def truth? (text : Text) : Option Bool :=
  let word := String.ofList text
  if ["yes", "Yes", "YES", "true", "True", "TRUE", "on", "On", "ON"].contains word then some true
  else if ["no", "No", "NO", "false", "False", "FALSE", "off", "Off", "OFF"].contains word then
    some false
  else none

/-- The words for an absent value. -/
def isAbsent (text : Text) : Bool :=
  ["", "~", "null", "Null", "NULL"].contains (String.ofList text)

/-- The value of a plain scalar. Of the two signs that have a meaning of their own,
the equals sign is a text where it is a key; the merge sign has no value. -/
def plainValue (isKey : Bool) (text : Text) : Except Failure Value :=
  match truth? text, fraction? text, integer? text with
  | some value, _, _ => .ok (.bool value)
  | none, some result, _ => .float <$> result
  | none, none, some result => .int <$> result
  | none, none, none =>
    if isAbsent text then .ok .null
    else if text = ['<', '<'] || (text = ['='] && !isKey) then
      malformed "could not determine a constructor"
    else
      match Timestamp.ofText? text with
      | none => .ok (.text (CodeText.ofText text))
      | some stamp =>
        match stamp.fault? with
        | none => .ok (.timestamp stamp)
        | some reason => .error (.timestamp reason)

namespace Node

/-- The plain merge sign is a merge key. -/
def isMergeKey : Node → Bool
  | .plain ['<', '<'] => true
  | _ => false

/-- The pairs of a mapping. -/
def pairs? : Node → Option (List (Node × Node))
  | .mapping pairs => some pairs
  | _ => none

/-- The pairs to take over from the value of a merge key: those of a mapping, or
of all mappings in a sequence, the last mapping first. -/
def mergedPairs? : Node → Option (List (Node × Node))
  | .sequence items => (items.mapM pairs?).map fun all => all.reverse.flatten
  | node => node.pairs?

/-- Takes over the pairs at merge keys. A merge key at which no pairs can be taken
over stays, in front of all pairs, and is met there before anything else. -/
def mergePairs (pairs : List (Node × Node)) : List (Node × Node) :=
  let (merging, own) := pairs.partition fun (key, _) => key.isMergeKey
  match merging.mapM fun (_, node) => node.mergedPairs? with
  | none => merging ++ own
  | some taken =>
    let (failed, taken) := taken.flatten.partition fun (key, _) => key.isMergeKey
    failed ++ taken ++ own

mutual

/-- Takes over the pairs at merge keys in all mappings of a node, the inner ones
first. -/
def merge : Node → Node
  | .plain text => .plain text
  | .quoted text => .quoted text
  | .sequence items => .sequence (mergeAll items)
  | .mapping pairs => .mapping (mergePairs (mergeValues pairs))

/-- Takes over the pairs at merge keys in all mappings of nodes. -/
def mergeAll : List Node → List Node
  | [] => []
  | node :: rest => node.merge :: mergeAll rest

/-- Takes over the pairs at merge keys in all mappings of the values of pairs. -/
def mergeValues : List (Node × Node) → List (Node × Node)
  | [] => []
  | (key, node) :: rest => (key, node.merge) :: mergeValues rest

end

/-- The value of a plain scalar, absent where it has none. -/
def plainOrNull (isKey : Bool) (text : Text) : Value :=
  match plainValue isKey text with
  | .ok value => value
  | .error _ => .null

mutual

/-- The value of a node whose scalars all have one. -/
def value (isKey : Bool) : Node → Value
  | .plain text => plainOrNull isKey text
  | .quoted text => .text text
  | .sequence items => .sequence (values items)
  | .mapping pairs => .mapping (pairValues pairs)

/-- The values of nodes. -/
def values : List Node → List Value
  | [] => []
  | node :: rest => node.value false :: values rest

/-- The values of pairs of nodes. -/
def pairValues : List (Node × Node) → List (Value × Value)
  | [] => []
  | (key, node) :: rest => (key.value true, node.value false) :: pairValues rest

end

/-- A failure, with the depth of the collection that meets it. -/
abbrev Fault := Nat × Failure

/-- The fault of a plain scalar in a collection of depth `depth`. -/
def plainFault (depth : Nat) (isKey : Bool) (text : Text) : List Fault :=
  match plainValue isKey text with
  | .ok _ => []
  | .error failure => [(depth, failure)]

mutual

/-- The faults in a node that stands in a collection of depth `depth`. -/
def faults (depth : Nat) : Node → List Fault
  | .plain text => plainFault depth false text
  | .quoted _ => []
  | .sequence items => itemFaults (depth + 1) items
  | .mapping pairs => pairFaults (depth + 1) pairs

/-- The faults in the entries of a sequence of depth `depth`. -/
def itemFaults (depth : Nat) : List Node → List Fault
  | [] => []
  | node :: rest => node.faults depth ++ itemFaults depth rest

/-- The faults in the pairs of a mapping of depth `depth`. A collection is no
key. -/
def pairFaults (depth : Nat) : List (Node × Node) → List Fault
  | [] => []
  | (key, node) :: rest =>
    (match key with
      | .plain text => plainFault depth true text
      | .quoted _ => []
      | _ => [(depth, .malformed "found unhashable key".toList)]) ++
    node.faults depth ++ pairFaults depth rest

end

/-- The failure of the least deep fault, the first of several. -/
def firstFault? (faults : List Fault) : Option Failure :=
  (faults.foldl
    (fun best fault =>
      match best with
      | none => some fault
      | some (depth, failure) => if fault.1 < depth then some fault else some (depth, failure))
    none).map Prod.snd

/-- The value of a node. Collections are looked at level by level, so of several
failures one in an outer collection is met first. -/
def toValue (node : Node) : Except Failure Value :=
  let node := node.merge
  match firstFault? (node.faults 0) with
  | some failure => .error failure
  | none => .ok (node.value false)

end Node

/-- The value of the only document of a text; a text without one is absent. Tags,
anchors, block scalars and directives are not read: a text that holds them counts as
malformed. -/
def Value.ofText (text : Text) : Except Failure Value := do
  match ← Node.ofTokens? (Token.ofText text) with
  | none => return .null
  | some node => node.toValue

end HeaderBook.Yaml
