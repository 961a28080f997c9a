import InterruptStress.Yaml.Basic
import InterruptStress.Yaml.Text

/-!
# Reading YAML

The part of YAML that configuration files use: block and flow maps and lists, the three kinds
of scalars, comments and document markers.  Directives, tags, anchors, literal blocks and keys
marked by a question mark are refused.  A text holds at most one document.

A block is known by its column.  An entry stands at its block's column and must be the first
thing on its line, or the first thing behind the dash of a list's item.
-/

namespace InterruptStress.Yaml

/-- How long a key may be, with the blanks in front of its colon. -/
def maxKeyLength : Nat := 1024

/-- The place behind the colon that makes the text between two places a key.  A key stands on
one line, and in a block a gap follows its colon. -/
def keyEnd? (flow : Bool) (start stop : Place) : Option Place :=
  let blanks := (stop.rest.takeWhile isBlank).length
  let colon := stop.skip blanks
  let length := start.rest.length - colon.rest.length
  match colon.rest with
  | ':' :: rest =>
    if (flow || atGap rest) && length ≤ maxKeyLength && !(start.rest.take length).any isBreak then
      some (colon.skip 1)
    else none
  | _ => none

/-- Whether a colon that separates a key from its value comes next on the line. -/
def atColon (flow : Bool) (p : Place) : Bool :=
  match p.rest.dropWhile isBlank with
  | ':' :: rest => flow || atGap rest
  | _ => false

/-- Reads a scalar in any of the three ways. -/
def readScalar (flow : Bool) (low : Nat) (p : Place) : Option (Yaml × Place) :=
  match p.rest with
  | '\'' :: rest =>
    (readSingle .none (p.column + 1) rest).map fun (text, q) => (scalar false (String.ofList text), q)
  | '"' :: rest =>
    (readDouble .none (p.column + 1) rest).map fun (text, q) => (scalar false (String.ofList text), q)
  | _ => (readPlain flow low p).map fun (text, q) => (scalar true (String.ofList text), q)

/-! ## Flow collections -/

mutual

/-- Reads a scalar or a collection in brackets.  The first argument bounds the number of
nested calls. -/
def readFlow (flow : Bool) (low : Nat) : Nat → Place → Option (Yaml × Place)
  | 0, _ => none
  | bound + 1, p =>
    if p.atEnd then none
    else
      match p.rest.head? with
      | some '[' => (readFlowItems low bound (p.skip 1)).map fun (items, q) => (sequence items, q)
      | some '{' => (readFlowEntries low bound (p.skip 1)).map fun (entries, q) => (mapping entries, q)
      | _ => readScalar flow low p

/-- Reads the items of a list up to its bracket.  An item may be a map of one entry. -/
def readFlowItems (low : Nat) : Nat → Place → Option (List Yaml × Place)
  | 0, _ => none
  | bound + 1, p => do
    let start := p.gap true
    if start.rest.head? = some ']' then some ([], start.skip 1)
    else
      let (item, stop) ← readFlow true low bound start
      let (item, stop) ← match keyEnd? true start stop with
        | some colon =>
          (readFlowValue low bound colon).map fun (value, q) => (mapping [(item, value)], q)
        | none => some (item, stop)
      let next := stop.gap true
      match next.rest.head? with
      | some ']' => some ([item], next.skip 1)
      | some ',' => (readFlowItems low bound (next.skip 1)).map fun (items, q) => (item :: items, q)
      | _ => none

/-- Reads the entries of a map up to its brace.  A key may stand without a value. -/
def readFlowEntries (low : Nat) : Nat → Place → Option (List (Yaml × Yaml) × Place)
  | 0, _ => none
  | bound + 1, p => do
    let start := p.gap true
    if start.rest.head? = some '}' then some ([], start.skip 1)
    else
      let (key, stop) ← readFlow true low bound start
      let (value, stop) ← match keyEnd? true start stop with
        | some colon => readFlowValue low bound colon
        | none => some (absent, stop)
      let next := stop.gap true
      match next.rest.head? with
      | some '}' => some ([(key, value)], next.skip 1)
      | some ',' =>
        (readFlowEntries low bound (next.skip 1)).map fun (entries, q) => ((key, value) :: entries, q)
      | _ => none

/-- Reads what follows the colon of an entry in brackets, which may be nothing. -/
def readFlowValue (low : Nat) : Nat → Place → Option (Yaml × Place)
  | 0, _ => none
  | bound + 1, p =>
    let start := p.gap true
    if start.rest.head?.any fun c => c = ',' || c = ']' || c = '}' then some (absent, start)
    else readFlow true low bound start

end

/-! ## Blocks -/

mutual

/-- Reads a value at a column not left of `low`.  With `beside`, a list may stand one column
further left, as the value of a key. -/
def readBlock : Nat → (low : Nat) → (beside : Bool) → Place → Option (Yaml × Place)
  | 0, _, _, _ => none
  | bound + 1, low, beside, p =>
    if p.atDash then
      if p.fresh && (low ≤ p.column || (beside && low = p.column + 1)) then
        (readBlockItems bound p.column (p.column < low) p).map fun (items, q) => (sequence items, q)
      else none
    else do
      let (value, stop) ← readFlow false low bound p
      match keyEnd? false p stop with
      | some colon =>
        if p.fresh then
          (readBlockEntries bound p.column value colon).map fun (entries, q) => (mapping entries, q)
        else none
      | none => if atColon false stop then none else some (value, stop)

/-- Reads the items of a block list from the dash of one of them.  A list that stands beside
its key ends where the next key begins. -/
def readBlockItems : Nat → (column : Nat) → (beside : Bool) → Place → Option (List Yaml × Place)
  | 0, _, _, _ => none
  | bound + 1, column, beside, p => do
    let start := Place.gap { p.skip 1 with fresh := true } false
    let (item, stop) ←
      if start.atEnd || start.column ≤ column then some (absent, start)
      else readBlock bound (column + 1) false start
    let next := stop.gap false
    if next.atEnd || next.column < column then some ([item], next)
    else if next.column = column && next.fresh && next.atDash then
      (readBlockItems bound column beside next).map fun (items, q) => (item :: items, q)
    else if next.column = column && beside then some ([item], next)
    else none

/-- Reads the entries of a block map, from behind the colon of the first key. -/
def readBlockEntries : Nat → (column : Nat) → (key : Yaml) → Place →
    Option (List (Yaml × Yaml) × Place)
  | 0, _, _, _ => none
  | bound + 1, column, key, p => do
    let start := p.gap false
    let nothing := start.atEnd || (start.fresh &&
      (start.column < column || (start.column = column && !start.atDash)))
    let (value, stop) ←
      if nothing then some (absent, start) else readBlock bound (column + 1) true start
    let next := stop.gap false
    if next.atEnd || next.column < column then some ([(key, value)], next)
    else if next.column = column && next.fresh then
      let (nextKey, keyStop) ← readFlow false (column + 1) bound next
      let colon ← keyEnd? false next keyStop
      (readBlockEntries bound column nextKey colon).map fun (entries, q) => ((key, value) :: entries, q)
    else none

end

/-! ## Documents -/

/-- Whether nothing but markers of the end is left. -/
def isFinished : Nat → Place → Bool
  | 0, _ => false
  | bound + 1, p =>
    match p.rest with
    | [] => true
    | '.' :: _ => p.atMarker && isFinished bound ((p.skip 3).gap false)
    | _ => false

/-- The place where the value of the document begins. -/
def documentStart (p : Place) : Place :=
  if p.atMarker && p.rest.head? = some '-' then (p.skip 3).gap false else p

/-- Reads a text of one document; where there is none, or an empty one, nothing is written. -/
def ofText? (text : String) : Option Yaml := do
  let cs := text.toList
  if !cs.all isAllowed then none
  else
    let cs := unifyBreaks cs
    let bound := 4 * cs.length + 8
    let start := documentStart (skipGap false false true 0 cs)
    let (value, stop) ←
      if start.atEnd then some (absent, start) else readBlock bound 0 false start
    if isFinished bound (stop.gap false) then some value else none

end InterruptStress.Yaml
