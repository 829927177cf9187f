import Tariff.Yaml.Node
import Tariff.Yaml.Token

/-!
# Reading YAML

The reader takes the part of YAML that configuration files use: block mappings and
`- ` sequences by indentation, flow collections, plain and quoted scalars, comments,
and the marks around a document. Every JSON text is of this kind. Anything else –
anchors, tags, block scalars, directives – is refused.

A file holds one document. One without tokens is a document in which nothing was
written. Wherever a node may be left out, nothing stands for `Node.empty`.
-/

namespace Tariff

namespace Yaml

mutual

/-- **The node that begins with the first token**, and the tokens after it. Where the
node is the key or value of a block mapping, a block sequence need not be indented
further. `fuel` bounds the number of tokens. -/
def readNode : (fuel : Nat) → (ofEntry : Bool) → List Token → Option (Node × List Token)
  | 0, _, _ => none
  | fuel + 1, ofEntry, ts =>
    match ts with
    | .scalar isPlain s :: rest => some (.scalar isPlain s, rest)
    | .openSequence :: rest => (readFlowItems fuel rest).map fun (ns, rest) => (.sequence ns, rest)
    | .openMapping :: rest => (readFlowEntries fuel rest).map fun (es, rest) => (.mapping es, rest)
    | .blockSequence :: rest => (readItems fuel rest).map fun (ns, rest) => (.sequence ns, rest)
    | .blockMapping :: rest => (readEntries fuel rest).map fun (es, rest) => (.mapping es, rest)
    | .item :: _ =>
      if ofEntry then (readUnindented fuel ts).map fun (ns, rest) => (.sequence ns, rest) else none
    | _ => none

/-- A node, or nothing before one of the tokens that may follow it. -/
def readOptional : (fuel : Nat) → (ofEntry : Bool) → (after : List Token) → List Token →
    Option (Node × List Token)
  | 0, _, _, _ => none
  | fuel + 1, ofEntry, after, ts =>
    if ts.head?.any after.contains then some (.empty, ts) else readNode fuel ofEntry ts

/-- The items of a block sequence. -/
def readItems : (fuel : Nat) → List Token → Option (List Node × List Token)
  | fuel + 1, .item :: rest => do
    let (n, rest) ← readOptional fuel false [.item, .blockEnd] rest
    let (ns, rest) ← readItems fuel rest
    some (n :: ns, rest)
  | _ + 1, .blockEnd :: rest => some ([], rest)
  | _, _ => none

/-- The items of a block sequence that is not indented further than the entry it
belongs to. -/
def readUnindented : (fuel : Nat) → List Token → Option (List Node × List Token)
  | 0, _ => none
  | fuel + 1, .item :: rest => do
    let (n, rest) ← readOptional fuel false [.item, .key, .value, .blockEnd] rest
    let (ns, rest) ← readUnindented fuel rest
    some (n :: ns, rest)
  | _ + 1, ts => some ([], ts)

/-- The entries of a block mapping. -/
def readEntries : (fuel : Nat) → List Token → Option (List (Node × Node) × List Token)
  | fuel + 1, .key :: rest => do
    let (k, rest) ← readOptional fuel true [.key, .value, .blockEnd] rest
    let (v, rest) ← match rest with
      | .value :: rest => readOptional fuel true [.key, .value, .blockEnd] rest
      | _ => some (.empty, rest)
    let (es, rest) ← readEntries fuel rest
    some ((k, v) :: es, rest)
  | _ + 1, .blockEnd :: rest => some ([], rest)
  | _, _ => none

/-- The items of a flow sequence, up to its bracket. -/
def readFlowItems : (fuel : Nat) → List Token → Option (List Node × List Token)
  | 0, _ => none
  | _ + 1, .closeSequence :: rest => some ([], rest)
  | fuel + 1, ts => do
    let (n, rest) ← match ts with
      | .key :: rest => readSingleEntry fuel rest
      | _ => readNode fuel false ts
    match rest with
    | .separator :: rest => do
      let (ns, rest) ← readFlowItems fuel rest
      some (n :: ns, rest)
    | .closeSequence :: rest => some ([n], rest)
    | _ => none

/-- An entry within a flow sequence, which is a mapping of its own, after the token of
its key. If the key is left out, the token in its place is passed over. -/
def readSingleEntry : (fuel : Nat) → List Token → Option (Node × List Token)
  | 0, _ => none
  | fuel + 1, ts => do
    let (k, rest) ← match ts with
      | .value :: rest | .separator :: rest | .closeSequence :: rest => some (.empty, rest)
      | _ => readNode fuel false ts
    let (v, rest) ← match rest with
      | .value :: rest => readOptional fuel false [.separator, .closeSequence] rest
      | _ => some (.empty, rest)
    some (.mapping [(k, v)], rest)

/-- The entries of a flow mapping, up to its brace. A node that is not a key stands
for an entry without a value. -/
def readFlowEntries : (fuel : Nat) → List Token → Option (List (Node × Node) × List Token)
  | 0, _ => none
  | _ + 1, .closeMapping :: rest => some ([], rest)
  | fuel + 1, ts => do
    let (entry, rest) ← match ts with
      | .key :: rest => do
        let (k, rest) ← readOptional fuel false [.value, .separator, .closeMapping] rest
        let (v, rest) ← match rest with
          | .value :: rest => readOptional fuel false [.separator, .closeMapping] rest
          | _ => some (.empty, rest)
        some ((k, v), rest)
      | _ => do
        let (k, rest) ← readNode fuel false ts
        some ((k, .empty), rest)
    match rest with
    | .separator :: rest => do
      let (es, rest) ← readFlowEntries fuel rest
      some (entry :: es, rest)
    | .closeMapping :: rest => some ([entry], rest)
    | _ => none

end

/-- **The document of a file**, given its tokens. -/
def Node.ofTokens? (ts : List Token) : Option Node :=
  let fuel := 4 * ts.length + 4
  let result : Option (Node × List Token) := match ts with
    | [] => some (.empty, [])
    | .documentStart :: rest =>
      match rest with
      | [] | .documentStart :: _ | .documentEnd :: _ => some (.empty, rest)
      | _ => readNode fuel false rest
    | _ => readNode fuel false ts
  match result with
  | some (node, rest) => if rest.all (· == .documentEnd) then some node else none
  | none => none

/-- **Reads a file.** -/
def parse? (text : String) : Option Node := do
  let gs ← glyphs? text
  let ts ← tokens? gs
  Node.ofTokens? ts

end Yaml

end Tariff
