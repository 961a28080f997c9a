import InterruptStress.Json.Reader

/-!
# Scalars of YAML

Reading the three ways to write a scalar: unquoted, in single quotes and in double quotes.
A scalar may run over several lines.  White space around a line break is dropped; one break
alone becomes a space, and of several all but the first are kept.
-/

namespace InterruptStress.Yaml

/-! ## Characters -/

def isBlank (c : Char) : Bool := c = ' ' || c = '\t'

/-- A line break, once those of one or two control characters have become line feeds. -/
def isBreak (c : Char) : Bool := c = '\n' || c.toNat = 0x2028 || c.toNat = 0x2029

def isGap (c : Char) : Bool := isBlank c || isBreak c

/-- Whether a blank, a break or the end comes next. -/
def atGap : List Char → Bool
  | [] => true
  | c :: _ => isGap c

/-- A character that may stand in a document. -/
def isAllowed (c : Char) : Bool :=
  let n := c.toNat
  n == 0x09 || n == 0x0A || n == 0x0D || (0x20 ≤ n && n ≤ 0x7E) || n == 0x85 ||
    (0xA0 ≤ n && n ≤ 0xFFFD) || 0x10000 ≤ n

/-- Writes every line break but the two of Unicode's own as a line feed. -/
def unifyBreaks : List Char → List Char
  | '\r' :: '\n' :: rest => '\n' :: unifyBreaks rest
  | c :: rest => (if c = '\r' ∨ c.toNat = 0x85 then '\n' else c) :: unifyBreaks rest
  | [] => []

/-! ## Places -/

/-- A place in a document: what follows, the column, and whether an entry of a block may begin
here, which needs a line or an entry that has just begun. -/
structure Place where
  rest : List Char
  column : Nat
  fresh : Bool

namespace Place

/-- The place after characters that all stand on one line. -/
def skip (p : Place) (count : Nat) : Place :=
  ⟨p.rest.drop count, p.column + count, false⟩

/-- Whether a line that separates documents begins here. -/
def atMarker (p : Place) : Bool :=
  p.column = 0 && (match p.rest with
    | '-' :: '-' :: '-' :: rest => atGap rest
    | '.' :: '.' :: '.' :: rest => atGap rest
    | _ => false)

def atEnd (p : Place) : Bool := p.rest.isEmpty || p.atMarker

/-- Whether an item of a block list begins here. -/
def atDash (p : Place) : Bool :=
  match p.rest with
  | '-' :: rest => atGap rest
  | _ => false

end Place

/-- Skips blanks, comments and line breaks.  In a block a tab may not stand where an entry may
begin. -/
def skipGap (flow : Bool) : (comment fresh : Bool) → Nat → List Char → Place
  | _, fresh, column, [] => ⟨[], column, fresh⟩
  | comment, fresh, column, c :: rest =>
    if isBreak c then skipGap flow false (fresh || !flow) 0 rest
    else if comment then skipGap flow true fresh (column + 1) rest
    else if c = '#' then skipGap flow true fresh (column + 1) rest
    else if c = ' ' ∨ (c = '\t' ∧ (flow ∨ !fresh)) ∨ (c.toNat = 0xFEFF ∧ column = 0) then
      skipGap flow false fresh (column + 1) rest
    else ⟨c :: rest, column, fresh⟩

def Place.gap (p : Place) (flow : Bool) : Place := skipGap flow false p.fresh p.column p.rest

/-! ## Folding -/

/-- The white space since the last character of a scalar: blanks in front of any break, and
then the breaks, the latest first.  A break that is escaped leaves no mark of its own. -/
structure Fold where
  blanks : List Char
  crossed : Bool
  breaks : List Char

namespace Fold

def none : Fold := ⟨[], false, []⟩

/-- After an escaped break. -/
def escaped : Fold := ⟨[], true, []⟩

def push (f : Fold) (c : Char) : Fold :=
  if isBreak c then
    -- a space stands for the break that is folded away
    if f.crossed then { f with breaks := c :: f.breaks }
    else ⟨[], true, [if c = '\n' then ' ' else c]⟩
  else if f.crossed then f
  else { f with blanks := c :: f.blanks }

/-- The text that the white space amounts to. -/
def text (f : Fold) : List Char :=
  if f.crossed then
    match f.breaks.reverse with
    | ' ' :: [] => [' ']
    | ' ' :: more => more
    | breaks => breaks
  else f.blanks.reverse

end Fold

/-! ## Quoted scalars -/

/-- Reads a scalar in single quotes, from behind the first of them. -/
def readSingle : Fold → Nat → List Char → Option (List Char × Place)
  | fold, column, cs =>
    if Place.atMarker ⟨cs, column, false⟩ then none
    else
      match cs with
      | [] => none
      | '\'' :: '\'' :: rest =>
        (readSingle .none (column + 2) rest).map fun (text, p) => (fold.text ++ '\'' :: text, p)
      | '\'' :: rest => some (fold.text, ⟨rest, column + 1, false⟩)
      | c :: rest =>
        if isGap c then readSingle (fold.push c) (if isBreak c then 0 else column + 1) rest
        else (readSingle .none (column + 1) rest).map fun (text, p) => (fold.text ++ c :: text, p)
termination_by _ _ cs => cs.length

/-- The character of an escape of one letter. -/
def shortEscape? : Char → Option Char
  | '0' => some (Char.ofNat 0)
  | 'a' => some (Char.ofNat 7)
  | 'b' => some (Char.ofNat 8)
  | 't' | '\t' => some '\t'
  | 'n' => some '\n'
  | 'v' => some (Char.ofNat 11)
  | 'f' => some (Char.ofNat 12)
  | 'r' => some '\r'
  | 'e' => some (Char.ofNat 27)
  | ' ' => some ' '
  | '"' => some '"'
  | '/' => some '/'
  | '\\' => some '\\'
  | 'N' => some (Char.ofNat 0x85)
  | '_' => some (Char.ofNat 0xA0)
  | 'L' => some (Char.ofNat 0x2028)
  | 'P' => some (Char.ofNat 0x2029)
  | _ => none

/-- How many hexadecimal digits follow the letter of a numeric escape. -/
def numericEscape? : Char → Option Nat
  | 'x' => some 2
  | 'u' => some 4
  | 'U' => some 8
  | _ => none

/-- The character that hexadecimal digits name. -/
def ofHex? (ds : List Char) : Option Char := do
  let values ← ds.mapM Json.hexValue?
  let n := values.foldl (fun n d => n * 16 + d) 0
  if n < 0xD800 ∨ (0xDFFF < n ∧ n ≤ 0x10FFFF) then some (Char.ofNat n) else none

/-- Reads a scalar in double quotes, from behind the first of them. -/
def readDouble : Fold → Nat → List Char → Option (List Char × Place)
  | fold, column, cs =>
    if Place.atMarker ⟨cs, column, false⟩ then none
    else
      match cs with
      | [] => none
      | '"' :: rest => some (fold.text, ⟨rest, column + 1, false⟩)
      | '\\' :: c :: rest =>
        if isBreak c then
          (readDouble .escaped 0 rest).map fun (text, p) => (fold.text ++ text, p)
        else
          match numericEscape? c with
          | some width =>
            if rest.length < width then none
            else do
              let char ← ofHex? (rest.take width)
              let (text, p) ← readDouble .none (column + 2 + width) (rest.drop width)
              some (fold.text ++ char :: text, p)
          | none => do
            let char ← shortEscape? c
            let (text, p) ← readDouble .none (column + 2) rest
            some (fold.text ++ char :: text, p)
      | c :: rest =>
        if c = '\\' then none
        else if isGap c then readDouble (fold.push c) (if isBreak c then 0 else column + 1) rest
        else (readDouble .none (column + 1) rest).map fun (text, p) => (fold.text ++ c :: text, p)
termination_by _ _ cs => cs.length
decreasing_by all_goals simp only [List.length_cons, List.length_drop]; omega

/-! ## Unquoted scalars -/

def isFlowIndicator (c : Char) : Bool := c = ',' || c = '[' || c = ']' || c = '{' || c = '}'

/-- Whether an unquoted scalar may begin here. -/
def startsPlain (flow : Bool) : List Char → Bool
  | [] => false
  | '-' :: rest => !atGap rest
  | c :: rest =>
    if c = '?' ∨ c = ':' then !flow && !atGap rest
    else !isGap c && !isFlowIndicator c && c ∉ ['#', '&', '*', '!', '|', '>', '\'', '"', '%', '@', Char.ofNat 96]

/-- Reads the part of an unquoted scalar that stands on one line; `spaced` holds the blanks
since its last character, the latest first.  A colon that touches a flow indicator is
refused. -/
def readRun (flow : Bool) : (spaced : List Char) → List Char → Option (List Char × List Char)
  | _, [] => some ([], [])
  | spaced, c :: rest =>
    if isBreak c ∨ (c = '#' ∧ !spaced.isEmpty) ∨ (flow ∧ isFlowIndicator c) then some ([], c :: rest)
    else if isBlank c then readRun flow (c :: spaced) rest
    else if c = ':' ∧ atGap rest then some ([], c :: rest)
    else if c = ':' ∧ flow ∧ rest.head?.any (fun d => isFlowIndicator d || d = '?') then none
    else (readRun flow [] rest).map fun (text, rest) => (spaced.reverse ++ c :: text, rest)

/-- Passes over the white space between two lines of an unquoted scalar.  A tab must not stand
left of the scalar's own column. -/
def readFold (low : Nat) : Fold → Nat → List Char → Option (Fold × Place)
  | fold, column, [] => some (fold, ⟨[], column, fold.crossed⟩)
  | fold, column, c :: rest =>
    if isBreak c then readFold low (fold.push c) 0 rest
    else if c = '\t' ∧ fold.crossed ∧ column < low then none
    else if isBlank c then readFold low (fold.push c) (column + 1) rest
    else some (fold, ⟨c :: rest, column, fold.crossed⟩)

/-- Reads the lines of an unquoted scalar.  In a block, each must stand at the column `low` or
right of it.  The first argument bounds the number of lines. -/
def readLines (flow : Bool) (low : Nat) : Nat → Fold → Place → Option (List Char × Place)
  | 0, _, _ => none
  | bound + 1, fold, p => do
    let (text, rest) ← readRun flow [] p.rest
    if text.isEmpty then some ([], p)
    else
      let after := p.column + (p.rest.length - rest.length)
      let (next, q) ← readFold low .none after rest
      let (more, r) ←
        if !next.crossed || q.atEnd || q.rest.head? = some '#' || (!flow && q.column < low) then
          some ([], q)
        else readLines flow low bound next q
      some (fold.text ++ text ++ more, r)

/-- Reads an unquoted scalar. -/
def readPlain (flow : Bool) (low : Nat) (p : Place) : Option (List Char × Place) :=
  if startsPlain flow p.rest then readLines flow low (p.rest.length + 1) .none p else none

end InterruptStress.Yaml
