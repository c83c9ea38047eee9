import ManagementShell.Text.Numeral

/-
This file reads the scalars of YAML documents: quoted text, plain text and blocks of text. Every
reader starts with a place in the document and ends with a later one.
-/

namespace ManagementShell.Yaml
open Text

/-- A place in a document with the text after it. -/
structure Place where
  rest : Text
  line : Nat
  column : Nat
  offset : Nat

def isBreak (character : Char) : Bool :=
  character ∈ ("\r\n\u0085\u2028\u2029" : Text)

def isBlank (character : Char) : Bool := character == ' ' || character == '\t'

/-- The text begins with a blank or a line break, or it is empty. -/
def startsBlank (text : Text) : Bool :=
  text.head?.all fun character => isBlank character || isBreak character

namespace Place

def start (text : Text) : Place := ⟨text, 0, 0, 0⟩

/-- A line break counts as one, also where it takes two characters. -/
def skipBreak (place : Place) : Place :=
  let next := fun rest count => (⟨rest, place.line + 1, 0, place.offset + count⟩ : Place)
  match place.rest with
  | '\r' :: '\n' :: rest => next rest 2
  | _ :: rest => next rest 1
  | [] => place

def skip (place : Place) (count : Nat) : Place :=
  ⟨place.rest.drop count, place.line, place.column + count, place.offset + count⟩

/-- The text of the line break at the place. -/
def breakText (place : Place) : Text :=
  match place.rest with
  | character :: _ => if character ∈ ("\r\n\u0085" : Text) then "\n" else [character]
  | [] => []

/-- A line of three hyphens or dots separates documents. -/
def isAtMark (mark : Text) (place : Place) : Bool :=
  place.column == 0 && match place.rest.after? mark with
    | some rest => startsBlank rest
    | none => false

def isAtSeparator (place : Place) : Bool := place.isAtMark "---" || place.isAtMark "..."

end Place

/-- White space inside a scalar: blanks in a line, or line breaks with the blanks around them
dropped. -/
structure Gap where
  blanks : Text
  breaks : List Text

/-- One line break is folded to a space, and of several the first is dropped. -/
def Gap.folded (gap : Gap) : Text :=
  match gap.breaks with
  | [] => gap.blanks
  | first :: rest =>
      if first ≠ "\n" then first ++ rest.flatten else if rest = [] then " " else rest.flatten

/-- Blanks and line breaks from a place on; the number bounds them. A tab must not stand where the
line is less indented than the scalar has to be. -/
def gap? (indentation : Option Nat) : Nat → Gap → Place → Option (Gap × Place)
  | 0, _, _ => none
  | count + 1, gap, place => match place.rest with
    | character :: _ =>
        if isBreak character then
          gap? indentation count ⟨[], gap.breaks ++ [place.breakText]⟩ place.skipBreak
        else if isBlank character then
          if gap.breaks ≠ [] ∧ character = '\t' ∧ indentation.any (place.column < ·) then none
          else
            let blanks := if gap.breaks = [] then gap.blanks ++ [character] else []
            gap? indentation count ⟨blanks, gap.breaks⟩ (place.skip 1)
        else some (gap, place)
    | [] => some (gap, place)

def isFlowMark (character : Char) : Bool := character ∈ (",[]\x7b\x7d" : Text)

/-- The plain text up to the next gap or mark; a colon before a mark is an error in a flow. -/
def plainRun? (inFlow : Bool) : Nat → Place → Option (Text × Place)
  | 0, _ => none
  | count + 1, place => match place.rest with
    | [] => some ([], place)
    | character :: rest =>
        if startsBlank place.rest then some ([], place)
        else if character = ':' ∧ startsBlank rest then some ([], place)
        else if character = ':' ∧ inFlow ∧ rest.head?.any (fun next => isFlowMark next || next == '?')
        then none
        else if inFlow ∧ isFlowMark character then some ([], place)
        else (plainRun? inFlow count (place.skip 1)).map fun read => (character :: read.1, read.2)

/-- Plain text with the place after it and whether it ends with a line break; `before` is the gap
before the place. -/
def plainFrom? (inFlow : Bool) (indentation : Nat) (before : Gap) :
    Nat → Place → Option (Text × Place × Bool)
  | 0, _ => none
  | count + 1, place =>
      let ended : Option (Text × Place × Bool) := some ([], place, before.breaks != [])
      if place.isAtSeparator || place.rest.head? == some '#' then ended
      else match plainRun? inFlow (place.rest.length + 1) place with
        | none => none
        | some ([], _) => ended
        | some (run, after) =>
            match gap? (some indentation) (after.rest.length + 1) ⟨[], []⟩ after with
            | none => none
            | some (gap, next) =>
                let text := before.folded ++ run
                if (gap.blanks = [] ∧ gap.breaks = []) ∨ (!inFlow ∧ next.column < indentation) then
                  some (text, next, gap.breaks != [])
                else (plainFrom? inFlow indentation gap count next).map fun read =>
                  (text ++ read.1, read.2)

def plain? (inFlow : Bool) (indentation : Nat) (place : Place) : Option (Text × Place × Bool) :=
  plainFrom? inFlow indentation ⟨[], []⟩ (place.rest.length + 1) place

/-- Each of these letters stands for a character after a backslash. -/
def escapes : List (Char × Char) :=
  [('0', '\x00'), ('a', '\x07'), ('b', '\x08'), ('t', '\t'), ('\t', '\t'), ('n', '\n'),
    ('v', '\x0b'), ('f', '\x0c'), ('r', '\r'), ('e', '\x1b'), (' ', ' '), ('"', '"'), ('/', '/'),
    ('\\', '\\'), ('N', '\u0085'), ('_', '\u00a0'), ('L', '\u2028'), ('P', '\u2029')]

/-- The number of hexadecimal digits after a letter. -/
def escapeDigits : Char → Option Nat
  | 'x' => some 2
  | 'u' => some 4
  | 'U' => some 8
  | _ => none

/-- The character that an escape stands for, and the number of characters after the backslash. -/
def escape? (text : Text) : Option (Char × Nat) :=
  match text with
  | [] => none
  | letter :: rest => match escapes.lookup letter, escapeDigits letter with
    | some character, _ => some (character, 1)
    | none, some count => match naturalInBase? 16 (rest.take count) with
      | some code =>
          if (rest.take count).length = count ∧ Nat.isValidChar code then
            some (Char.ofNat code, count + 1)
          else none
      | none => none
    | none, none => none

/-- Blanks at the beginnings of the lines after an escaped line break are dropped. -/
def afterEscapedBreak? (count : Nat) (place : Place) : Option (Text × Place) :=
  (gap? none count ⟨[], [([] : Text)]⟩ place.skipBreak).map fun read =>
    (read.1.breaks.flatten, read.2)

/-- The text up to the closing quote and the place after it. -/
def quoted? (quote : Char) : Nat → Place → Option (Text × Place)
  | 0, _ => none
  | count + 1, place =>
      if place.isAtSeparator then none
      else match place.rest with
        | [] => none
        | character :: rest =>
            if isBlank character || isBreak character then
              match gap? none (place.rest.length + 1) ⟨[], []⟩ place with
              | none => none
              | some (gap, next) => (quoted? quote count next).map fun read =>
                  (gap.folded ++ read.1, read.2)
            else if quote = '\'' ∧ character = '\'' ∧ rest.head? = some '\'' then
              (quoted? quote count (place.skip 2)).map fun read => ('\'' :: read.1, read.2)
            else if character = quote then some ([], place.skip 1)
            else if quote = '"' ∧ character = '\\' then
              if rest.head?.any isBreak then
                match afterEscapedBreak? (rest.length + 1) (place.skip 1) with
                | none => none
                | some (breaks, next) => (quoted? quote count next).map fun read =>
                    (breaks ++ read.1, read.2)
              else match escape? rest with
                | none => none
                | some (escaped, length) =>
                    (quoted? quote count (place.skip (length + 1))).map fun read =>
                      (escaped :: read.1, read.2)
            else (quoted? quote count (place.skip 1)).map fun read => (character :: read.1, read.2)

/-- What becomes of the line breaks at the end of a block. -/
inductive Chomping where
  | strip
  | clip
  | keep
  deriving DecidableEq, Repr

/-- The header of a block: its chomping and its indentation, if they are given. -/
structure BlockHeader where
  chomping : Chomping
  indentation : Option Nat

/-- Signs and one digit may stand in any order. -/
def blockHeader? (text : Text) : Option (BlockHeader × Nat) :=
  let chomping? : Char → Option Chomping := fun character =>
    if character = '+' then some .keep else if character = '-' then some .strip else none
  let digit? : Char → Option Nat := fun character =>
    if '1' ≤ character ∧ character ≤ '9' then some (character.toNat - '0'.toNat) else none
  match text with
  | first :: rest => match chomping? first, digit? first with
    | some chomping, _ => match rest.head?.bind digit? with
      | some digit => some (⟨chomping, some digit⟩, 2)
      | none => if rest.head? = some '0' then none else some (⟨chomping, none⟩, 1)
    | none, some digit => match rest.head?.bind chomping? with
      | some chomping => some (⟨chomping, some digit⟩, 2)
      | none => some (⟨.clip, some digit⟩, 1)
    | none, none => if first = '0' then none else some (⟨.clip, none⟩, 0)
  | [] => some (⟨.clip, none⟩, 0)

/-- The end of a header line, where only blanks and a comment may stand. -/
def endOfHeader? (place : Place) : Option Place :=
  let blanks := place.rest.takeWhile isBlank
  let rest := place.rest.drop blanks.length
  let comment := if rest.head? = some '#' then rest.takeWhile fun c => !isBreak c else []
  let ended := place.skip (blanks.length + comment.length)
  match ended.rest with
  | [] => some ended
  | character :: _ => if isBreak character then some ended.skipBreak else none

/-- Blank lines of a block, with the greatest column on the way; spaces are skipped as far as the
indentation reaches, if it is known. -/
def blockBreaks? (indentation : Option Nat) :
    Nat → List Text → Nat → Place → Option (List Text × Nat × Place)
  | 0, _, _, _ => none
  | count + 1, breaks, widest, place =>
      let spaces := place.rest.takeWhile (· == ' ')
      let taken := match indentation with
        | some column => min spaces.length (column - place.column)
        | none => spaces.length
      let next := place.skip taken
      let reached := max widest next.column
      if indentation.all (next.column < ·) ∧ next.rest.head? = some '\t' then none
      else if next.rest.head?.any isBreak then
        blockBreaks? indentation count (breaks ++ [next.breakText]) reached next.skipBreak
      else some (breaks, reached, next)

/-- How the lines of a block are joined: kept, or folded unless they begin with a blank. -/
def joint (isFolded wasBlank isNowBlank : Bool) (lineBreak : Text) (breaks : List Text) : Text :=
  if isFolded && lineBreak == "\n" && !wasBlank && !isNowBlank then
    if breaks = [] then " " else []
  else lineBreak

/-- The lines of a block from a place on that has the block's indentation. -/
def blockLines? (isFolded : Bool) (chomping : Chomping) (indentation : Nat) :
    Nat → (wasBlank : Bool) → (lineBreak : Text) → (breaks : List Text) → Place →
      Option (Text × Place)
  | 0, _, _, _, _ => none
  | count + 1, wasBlank, lineBreak, breaks, place =>
      if place.column = indentation ∧ place.rest ≠ [] then
        let isNowBlank := place.rest.head?.any isBlank
        let text := place.rest.takeWhile fun character => !isBreak character
        let ended := place.skip text.length
        match blockBreaks? (some indentation) (ended.rest.length + 1) [] 0 ended.skipBreak with
        | none => none
        | some (nextBreaks, _, next) =>
            let before := joint isFolded wasBlank isNowBlank lineBreak breaks ++ breaks.flatten
            (blockLines? isFolded chomping indentation count isNowBlank ended.breakText nextBreaks
              next).map fun read => (before ++ text ++ read.1, read.2)
      else match chomping with
        | .strip => some ([], place)
        | .clip => some (lineBreak, place)
        | .keep => some (lineBreak ++ breaks.flatten, place)

/-- A block of text after its sign; `parent` is the indentation around it. Without an indentation of
its own it has that of its first line. -/
def block? (isFolded : Bool) (parent : Int) (place : Place) : Option (Text × Place) :=
  match blockHeader? place.rest with
  | none => none
  | some (header, length) => match endOfHeader? (place.skip length) with
    | none => none
    | some body =>
        let outer := (max parent 0).toNat
        let given := header.indentation.map (outer + ·)
        match blockBreaks? given (body.rest.length + 1) [] 0 body with
        | none => none
        | some (breaks, widest, first) =>
            let indentation := given.getD (max (max widest (parent + 1).toNat) 1)
            blockLines? isFolded header.chomping indentation (first.rest.length + 1) false [] breaks
              first

end ManagementShell.Yaml
