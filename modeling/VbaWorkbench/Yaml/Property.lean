import VbaWorkbench.Text.Digits
import VbaWorkbench.Yaml.Cursor

namespace VbaWorkbench.Yaml

def isNameChar (c : Char) : Bool :=
  c.isAlphanum || c == '_' || c == '-'

/-- Reads the name after the sign of an anchor or an alias. -/
def readName (c : Cursor) : Option (Text × Cursor) :=
  let name := c.rest.takeWhile isNameChar
  let next := c.skip name.length
  let isEnded := endsWord next.rest ||
    next.rest.head?.any (· ∈ ['?', ':', ',', ']', '\x7d', '%', '@', '\x60'])
  if name.isEmpty || !isEnded then none else some (name, next)

/-- The name of a tag, in bytes: escapes in it write bytes, which need not be text. -/
abbrev TagName := List UInt8

namespace TagName

def ofAscii (t : Text) : TagName :=
  t.map Char.toUInt8

/-- A name ends at the first zero byte. -/
def ended (name : TagName) : TagName :=
  name.takeWhile (· != 0)

/-- The text behind the exclamation mark of a tag that only this document knows. -/
def localText? : TagName → Option Text
  | [] => none
  | mark :: rest =>
    if mark = '!'.toUInt8 then (String.fromUTF8? rest.toByteArray).map String.toList else none

end TagName

/-- A tag as it is written: a handle that stands for the beginning of a longer name, and the rest of
that name. -/
structure Tag where
  handle : Text
  suffix : TagName
deriving DecidableEq, Repr

/-- The number of bytes of a character in UTF-8, by the first of them. -/
def utf8Width? (byte : Nat) : Option Nat :=
  if byte < 0x80 then some 1
  else if byte < 0xc0 then none
  else if byte < 0xe0 then some 2
  else if byte < 0xf0 then some 3
  else if byte < 0xf8 then some 4
  else none

/-- A byte that is written as a percent sign and two hexadecimal digits. -/
def percentByte? : Text → Option Nat
  | '%' :: a :: b :: _ => Text.natural? 16 [a, b]
  | _ => none

/-- The further bytes of a character. -/
def furtherBytes? : (count : Nat) → Text → Option TagName
  | 0, _ => some []
  | count + 1, t =>
    match percentByte? t with
    | some byte =>
      if 0x80 ≤ byte ∧ byte < 0xc0 then
        (furtherBytes? count (t.drop 3)).map (byte.toUInt8 :: ·)
      else none
    | none => none

/-- The bytes of one character that are written with percent signs. Only their leading bits are
looked at. -/
def percentBytes? (t : Text) : Option TagName :=
  match percentByte? t with
  | some byte =>
    (utf8Width? byte).bind fun width =>
      (furtherBytes? (width - 1) (t.drop 3)).map (byte.toUInt8 :: ·)
  | none => none

def isUriChar (inBrackets : Bool) (c : Char) : Bool :=
  isNameChar c ||
    c ∈ [';', '/', '?', ':', '@', '&', '=', '+', '$', '.', '!', '~', '*', '\'', '(', ')'] ||
    (inBrackets && c ∈ [',', '[', ']'])

/-- Reads the name of a tag, in which characters may be written with percent signs. -/
def readUri (inBrackets : Bool) : (fuel : Nat) → Cursor → Option (TagName × Cursor)
  | 0, _ => none
  | fuel + 1, c =>
    let part := c.rest.takeWhile (isUriChar inBrackets)
    let next := c.skip part.length
    if next.rest.head? = some '%' then
      (percentBytes? next.rest).bind fun bytes =>
        (readUri inBrackets fuel (next.skip (3 * bytes.length))).map fun (name, c) =>
          (TagName.ofAscii part ++ bytes ++ name, c)
    else some (TagName.ofAscii part, next)

/-- What is written must have a byte at least, be it zero. -/
def nonEmpty? (r : TagName × Cursor) : Option (TagName × Cursor) :=
  if r.1.isEmpty then none else some (r.1.ended, r.2)

/-- The handle at the cursor: an exclamation mark, or a name between two of them. -/
def handleAt (c : Cursor) : Text :=
  let name := (c.rest.drop 1).takeWhile isNameChar
  if (c.rest.drop (1 + name.length)).head? = some '!' then '!' :: name ++ ['!'] else ['!']

/-- Reads a tag from its exclamation mark on. -/
def readTag (inFlow : Bool) (fuel : Nat) (c : Cursor) : Option (Tag × Cursor) :=
  let read : Option (Tag × Cursor) :=
    match c.rest with
    | _ :: '<' :: _ =>
      ((readUri true fuel (c.skip 2)).bind nonEmpty?).bind fun (name, c) =>
        if c.rest.head? = some '>' then some (⟨[], name⟩, c.skip 1) else none
    | _ =>
      let handle := handleAt c
      let after := readUri false fuel (c.skip handle.length)
      if handle.length = 1 then
        after.map fun (name, c) =>
          let name := name.ended
          (if name.isEmpty then ⟨[], TagName.ofAscii ['!']⟩ else ⟨handle, name⟩, c)
      else (after.bind nonEmpty?).map fun (name, c) => (⟨handle, name⟩, c)
  read.filter fun (_, c) => endsWord c.rest || (inFlow && c.rest.head? == some ',')

/-- A line that begins with a percent sign. -/
inductive Directive where
  /-- The version of the language. -/
  | version (major minor : Nat)
  /-- What a handle stands for. -/
  | handle (handle : Text) (name : TagName)
deriving DecidableEq, Repr

/-- Reads a part of a version number. -/
def readVersionPart (c : Cursor) : Option (Nat × Cursor) :=
  let digits := c.rest.takeWhile Char.isDigit
  if digits.length ≤ 9 then (Text.natural? 10 digits).map (·, c.skip digits.length) else none

def readVersion (c : Cursor) : Option (Directive × Cursor) :=
  (readVersionPart c).bind fun (major, c) =>
    if c.rest.head? = some '.' then
      (readVersionPart (c.skip 1)).map fun (minor, c) => (.version major minor, c)
    else none

def readHandle (fuel : Nat) (c : Cursor) : Option (Directive × Cursor) :=
  let handle := handleAt c
  let next := c.skip handle.length
  let name := next.skipWhile Text.isBlank
  if c.rest.head? ≠ some '!' ∨ name.column = next.column then none
  else
    ((readUri true fuel name).bind nonEmpty?).bind fun (name, c) =>
      if endsWord c.rest then some (.handle handle name, c) else none

/-- Reads a directive after its percent sign, to the end of its line. -/
def readDirective (fuel : Nat) (c : Cursor) : Option (Directive × Cursor) :=
  let name := c.rest.takeWhile isNameChar
  let next := (c.skip name.length).skipWhile Text.isBlank
  let read :=
    if !endsWord (c.rest.drop name.length) then none
    else if name = ['Y', 'A', 'M', 'L'] then readVersion next
    else if name = ['T', 'A', 'G'] then readHandle fuel next
    else none
  read.bind fun (d, c) => c.skipComment.nextLine?.map (d, ·)

end VbaWorkbench.Yaml
