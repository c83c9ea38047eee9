import ManagementShell.Text.Utf8
import ManagementShell.Yaml.Scalar

/-
This file splits YAML documents into tokens. Where indentation begins and ends a list or a table,
there is a token for it, and a token for a key is put in as soon as the colon behind it is read.
-/

namespace ManagementShell.Yaml
open Text

inductive Token where
  | version (major minor : Nat)
  /-- What a handle at the beginning of a tag stands for. -/
  | handle (name meaning : Text)
  | documentStart
  | documentEnd
  | listStart
  | tableStart
  | blockEnd
  | flowListStart
  | flowListEnd
  | flowTableStart
  | flowTableEnd
  | item
  | comma
  | key
  | value
  | anchor (name : Text)
  | alias (name : Text)
  | tag (handle rest : Text)
  | scalar (isPlain : Bool) (text : Text)
  deriving DecidableEq, Repr

def isWordCharacter (character : Char) : Bool :=
  character.isAlphanum || character == '_' || character == '-'

def word (place : Place) : Text := place.rest.takeWhile isWordCharacter

def skipBlanks (place : Place) : Place := place.skip (place.rest.takeWhile isBlank).length

/-- Bytes that are written with a percent sign each, and the number of them. -/
def percentBytes : Text → Bytes
  | '%' :: first :: second :: rest => match naturalInBase? 16 [first, second] with
    | some value => byte value :: percentBytes rest
    | none => []
  | _ => []

/-- The characters of a tag; three marks may only stand in a tag that is written out. -/
def isTagCharacter (isWrittenOut : Bool) (character : Char) : Bool :=
  isWordCharacter character || character ∈ (";/?:@&=+$.!~*'()" : Text) ||
    isWrittenOut && character ∈ (",[]" : Text)

/-- The characters of a tag from a place on; the number bounds them. -/
def tagText? (isWrittenOut : Bool) : Nat → Place → Option (Text × Place)
  | 0, _ => none
  | count + 1, place => match place.rest with
    | '%' :: _ =>
        let bytes := percentBytes place.rest
        match bytes, decode? bytes with
        | _ :: _, some text =>
            (tagText? isWrittenOut count (place.skip (3 * bytes.length))).map fun read =>
              (text ++ read.1, read.2)
        | _, _ => none
    | character :: _ =>
        if isTagCharacter isWrittenOut character then
          (tagText? isWrittenOut count (place.skip 1)).map fun read =>
            (character :: read.1, read.2)
        else some ([], place)
    | [] => some ([], place)

/-- A tag must not be empty. -/
def someTagText? (isWrittenOut : Bool) (place : Place) : Option (Text × Place) :=
  match tagText? isWrittenOut (place.rest.length + 1) place with
  | some (text, after) => if text = [] then none else some (text, after)
  | none => none

/-- The word between two exclamation marks, both included. -/
def tagHandle? (place : Place) : Option (Text × Place) :=
  let name := word (place.skip 1)
  let after := place.skip (name.length + 1)
  if after.rest.head? = some '!' then some ('!' :: name ++ ['!'], after.skip 1) else none

/-- A tag is written out between angle brackets, or it begins with a handle or one mark. -/
def tag? (place : Place) : Option (Token × Place) :=
  match after? place.rest "!<" with
  | some _ => match someTagText? true (place.skip 2) with
    | some (text, after) =>
        if after.rest.head? = some '>' then some (.tag [] text, after.skip 1) else none
    | none => none
  | none => match tagHandle? place with
    | some (handle, after) => (someTagText? false after).map fun read =>
        (.tag handle read.1, read.2)
    | none => (tagText? false (place.rest.length + 1) (place.skip 1)).map fun read =>
        if read.1 = [] then (.tag [] "!", read.2) else (.tag "!" read.1, read.2)

/-- A tag ends before a blank, or in a flow before a comma. -/
def wholeTag? (inFlow : Bool) (place : Place) : Option (Token × Place) :=
  match tag? place with
  | some (tag, after) =>
      if startsBlank after.rest ∨ (inFlow ∧ after.rest.head? = some ',') then some (tag, after)
      else none
  | none => none

/-- The name after the mark of an anchor or an alias. -/
def anchorName? (place : Place) : Option (Text × Place) :=
  let name := word (place.skip 1)
  let after := place.skip (name.length + 1)
  let isEnded := startsBlank after.rest ||
    after.rest.head?.any fun next => next ∈ ("?:,]\x7d%@\x60" : Text)
  if name ≠ [] ∧ isEnded then some (name, after) else none

/-- A number of at most nine digits. -/
def versionNumber? (place : Place) : Option (Nat × Place) :=
  let digits := place.rest.takeWhile Char.isDigit
  if digits.length ≤ 9 then
    (natural? digits).map fun value => (value, place.skip digits.length)
  else none

def version? (place : Place) : Option (Token × Place) :=
  match versionNumber? (skipBlanks place) with
  | some (major, dot) =>
      if dot.rest.head? = some '.' then
        (versionNumber? (dot.skip 1)).map fun read => (.version major read.1, read.2)
      else none
  | none => none

/-- One mark alone is a handle here too. -/
def handle? (place : Place) : Option (Token × Place) :=
  let begun := skipBlanks place
  let read := match tagHandle? begun with
    | some read => some read
    | none =>
        if begun.rest.head? = some '!' ∧ word (begun.skip 1) = [] then some ("!", begun.skip 1)
        else none
  match read with
  | none => none
  | some (name, after) =>
      if begun.rest.head? = some '!' ∧ after.rest.head?.any isBlank then
        match someTagText? true (skipBlanks after) with
        | some (meaning, ended) =>
            if startsBlank ended.rest then some (.handle name meaning, ended) else none
        | none => none
      else none

/-- A line with a percent sign in front gives the version of the document or a handle. -/
def directive? (place : Place) : Option (Token × Place) :=
  let name := word (place.skip 1)
  let after := place.skip (name.length + 1)
  let read := if !startsBlank after.rest then none
    else if name = "YAML" then version? after
    else if name = "TAG" then handle? after
    else none
  match read with
  | some (token, place) => (endOfHeader? place).map fun ended => (token, ended)
  | none => none

/-- A token that is a key if a colon follows it on its line. A required one starts a line of the
table that the indentation tells. -/
structure PossibleKey where
  /-- The number of tokens before it. -/
  position : Nat
  place : Place
  isRequired : Bool

/-- The tokens up to a place, the newest first, with what the next ones depend on. -/
structure Progress where
  place : Place
  tokens : List Token
  /-- The column of the innermost list or table, which is negative outside of all. -/
  indentation : Int
  outerIndentations : List Int
  possibleKey : Option PossibleKey
  /-- One for each open bracket. -/
  outerKeys : List (Option PossibleKey)
  keyAllowed : Bool

namespace Progress

def start (text : Text) : Progress := ⟨.start text, [], -1, [], none, [], true⟩

def inFlow (progress : Progress) : Bool := !progress.outerKeys.isEmpty

def add (progress : Progress) (token : Token) : Progress :=
  { progress with tokens := token :: progress.tokens }

/-- Tokens are put in after the given number of tokens. -/
def insert (progress : Progress) (position : Nat) (added : List Token) : Progress :=
  let newer := progress.tokens.length - position
  { progress with
    tokens := progress.tokens.take newer ++ added.reverse ++ progress.tokens.drop newer }

/-- Lists and tables that are further indented than a column are closed there. -/
def closeBlocks (column : Int) : List Int → Progress → Progress
  | [], progress => progress
  | outer :: rest, progress =>
      if progress.indentation ≤ column then progress
      else
        closeBlocks column rest
          { progress with
            tokens := .blockEnd :: progress.tokens, indentation := outer, outerIndentations := rest }

def unindent (progress : Progress) (column : Int) : Progress :=
  if progress.inFlow then progress
  else closeBlocks column progress.outerIndentations progress

/-- A list or a table is opened before a token that is further indented. -/
def indent (progress : Progress) (column : Nat) (position : Nat) (opening : Token) : Progress :=
  if progress.inFlow ∨ (column : Int) ≤ progress.indentation then progress
  else
    { progress.insert position [opening] with
      indentation := column, outerIndentations := progress.indentation :: progress.outerIndentations }

/-- A required key must not be given up. -/
def dropKey? (progress : Progress) : Option Progress :=
  if progress.possibleKey.any PossibleKey.isRequired then none
  else some { progress with possibleKey := none }

/-- The token that comes next is marked as a possible key. -/
def noteKey? (progress : Progress) : Option Progress :=
  if progress.keyAllowed then
    progress.dropKey?.map fun next =>
      { next with
        possibleKey := some
          { position := progress.tokens.length
            place := progress.place
            isRequired := !progress.inFlow && progress.indentation == progress.place.column } }
  else some progress

/-- The greatest distance between the beginning of a key and its colon. -/
def longestKey : Nat := 1024

def isOverdue (place : Place) (key : PossibleKey) : Bool :=
  key.place.line < place.line || key.place.offset + longestKey < place.offset

/-- Keys whose colon did not come in time are no keys. -/
def dropOverdue? (progress : Progress) : Option Progress :=
  let keep? : Option PossibleKey → Option (Option PossibleKey) := fun key =>
    match key.filter (isOverdue progress.place) with
    | some overdue => if overdue.isRequired then none else some none
    | none => some key
  match keep? progress.possibleKey, progress.outerKeys.mapM keep? with
  | some key, some outer => some { progress with possibleKey := key, outerKeys := outer }
  | _, _ => none

/-- A single character that is a token by itself. -/
def mark (progress : Progress) (token : Token) (keyAllowed : Bool) : Progress :=
  { progress.add token with place := progress.place.skip 1, keyAllowed := keyAllowed }

/-- A token that was read with the place after it. -/
def took (progress : Progress) (keyAllowed : Bool) (read : Token × Place) : Progress :=
  { progress.add read.1 with place := read.2, keyAllowed := keyAllowed }

def openFlow? (progress : Progress) (token : Token) : Option Progress :=
  progress.noteKey?.map fun next =>
    { next.mark token true with
      possibleKey := none, outerKeys := next.possibleKey :: next.outerKeys }

def closeFlow? (progress : Progress) (token : Token) : Option Progress :=
  progress.dropKey?.map fun next => match next.outerKeys with
    | key :: outer => { next.mark token false with possibleKey := key, outerKeys := outer }
    | [] => next.mark token false

/-- Hyphens of a list and question marks before keys may open a block that starts at them. -/
def blockMark? (progress : Progress) (opening token : Token) (keyAllowed : Bool) :
    Option Progress :=
  if !progress.inFlow && !progress.keyAllowed then none
  else
    let opened := progress.indent progress.place.column progress.tokens.length opening
    opened.dropKey?.map fun next => next.mark token keyAllowed

/-- A colon turns the possible key before it into a key. -/
def value? (progress : Progress) : Option Progress :=
  match progress.possibleKey with
  | some key =>
      let keyed := progress.insert key.position [.key]
      let opened := keyed.indent key.place.column key.position .tableStart
      some { opened.mark .value false with possibleKey := none }
  | none =>
      if !progress.inFlow && !progress.keyAllowed then none
      else
        let opened := progress.indent progress.place.column progress.tokens.length .tableStart
        some (opened.mark .value (!progress.inFlow))

/-- A token that may be a key; no other key follows it directly. -/
def content? (progress : Progress) (read? : Place → Option (Token × Place)) : Option Progress :=
  match progress.noteKey?, read? progress.place with
  | some next, some read => some (next.took false read)
  | _, _ => none

def quoted? (progress : Progress) (quote : Char) : Option Progress :=
  progress.content? fun place =>
    (Yaml.quoted? quote (place.rest.length + 1) (place.skip 1)).map fun read =>
      (.scalar false read.1, read.2)

/-- A key may follow plain text that ends with a line break. -/
def plain? (progress : Progress) : Option Progress :=
  let indentation := (progress.indentation + 1).toNat
  match progress.noteKey?, Yaml.plain? progress.inFlow indentation progress.place with
  | some next, some (text, after, hasBreak) => some (next.took hasBreak (.scalar true text, after))
  | _, _ => none

def block? (progress : Progress) (isFolded : Bool) : Option Progress :=
  match progress.dropKey?,
      Yaml.block? isFolded progress.indentation (progress.place.skip 1) with
  | some next, some (text, after) => some (next.took true (.scalar false text, after))
  | _, _ => none

/-- The end of all blocks, before a directive or a separator of documents. -/
def outermost? (progress : Progress) : Option Progress :=
  (progress.unindent (-1)).dropKey?

def separator? (progress : Progress) (token : Token) : Option Progress :=
  progress.outermost?.map fun next => next.took false (token, next.place.skip 3)

def nextDirective? (progress : Progress) : Option Progress :=
  match progress.outermost?, directive? progress.place with
  | some next, some read => some (next.took false read)
  | _, _ => none

/-- Plain text does not begin with a mark, except for three that stand before another character. -/
def startsPlain (inFlow : Bool) : Text → Bool
  | [] => false
  | first :: rest =>
      if first = '-' then !rest.head?.any isBlank
      else if first = '?' ∨ first = ':' then !inFlow && !startsBlank rest
      else !isBlank first && !isBreak first &&
        first ∉ (",[]\x7b\x7d#&*!|>'\"%@\x60" : Text)

/-- The token that starts at the place, which is neither blank nor at the end. -/
def next? (progress : Progress) : Option Progress :=
  let place := progress.place
  let inFlow := progress.inFlow
  let standsAlone := startsBlank place.rest.tail
  match place.rest.head? with
  | none => none
  | some first =>
      if place.column = 0 ∧ first = '%' then progress.nextDirective?
      else if place.isAtMark "---" then progress.separator? .documentStart
      else if place.isAtMark "..." then progress.separator? .documentEnd
      else if first = '[' then progress.openFlow? .flowListStart
      else if first = '\x7b' then progress.openFlow? .flowTableStart
      else if first = ']' then progress.closeFlow? .flowListEnd
      else if first = '\x7d' then progress.closeFlow? .flowTableEnd
      else if first = ',' then progress.dropKey?.map fun next => next.mark .comma true
      else if first = '-' ∧ standsAlone then progress.blockMark? .listStart .item true
      else if first = '?' ∧ (inFlow ∨ standsAlone) then
        progress.blockMark? .tableStart .key (!inFlow)
      else if first = ':' ∧ (inFlow ∨ standsAlone) then progress.value?
      else if first = '*' then progress.content? fun place =>
        (anchorName? place).map fun read => (.alias read.1, read.2)
      else if first = '&' then progress.content? fun place =>
        (anchorName? place).map fun read => (.anchor read.1, read.2)
      else if first = '!' then progress.content? (wholeTag? inFlow)
      else if first = '|' ∧ !inFlow then progress.block? false
      else if first = '>' ∧ !inFlow then progress.block? true
      else if first = '\'' ∨ first = '"' then progress.quoted? first
      else if startsPlain inFlow place.rest then progress.plain?
      else none

/-- Blanks, comments and line breaks are skipped. Outside of brackets a key may start a line, and no
tab may stand where a key may. -/
def skipGap : Nat → Progress → Progress
  | 0, progress => progress
  | count + 1, progress =>
      let isSkipped := fun character =>
        character == ' ' || character == '\t' && (progress.inFlow || !progress.keyAllowed)
      let begun := progress.place.skip (progress.place.rest.takeWhile isSkipped).length
      let comment := if begun.rest.head? = some '#' then begun.rest.takeWhile fun c => !isBreak c
        else []
      let ended := begun.skip comment.length
      if ended.rest.head?.any isBreak then
        skipGap count
          { progress with
            place := ended.skipBreak, keyAllowed := progress.keyAllowed || !progress.inFlow }
      else { progress with place := ended }

/-- The place of the next token, with all blocks closed that end before it. -/
def atNext? (progress : Progress) : Option Progress :=
  let skipped := progress.skipGap (progress.place.rest.length + 1)
  skipped.dropOverdue?.map fun next => next.unindent next.place.column

/-- The tokens from a place on; the number bounds them. -/
def tokens? : Nat → Progress → Option (List Token)
  | 0, _ => none
  | count + 1, progress => match progress.atNext? with
    | none => none
    | some begun =>
        if begun.place.rest = [] then
          begun.outermost?.map fun ended => ended.tokens.reverse
        else match begun.next? with
          | some next => tokens? count next
          | none => none

end Progress

/-- Tabs and line breaks are the only control characters of a document. -/
def isAllowed (character : Char) : Bool :=
  let code := character.toNat
  character ∈ ("\t\n\r\u0085" : Text) || (0x20 ≤ code && code ≤ 0x7e) ||
    (0xa0 ≤ code && code ≤ 0xfffd) || 0x10000 ≤ code

/-- The tokens of a text; marks of the byte order may stand in front. -/
def tokens? (text : Text) : Option (List Token) :=
  if text.all isAllowed then
    let unmarked := (after? text "\uFEFF").getD text
    let begun := (after? unmarked "\uFEFF").getD unmarked
    (Progress.start begun).tokens? (begun.length + 1)
  else none

end ManagementShell.Yaml
