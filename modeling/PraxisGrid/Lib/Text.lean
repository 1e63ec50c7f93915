/-
PraxisGrid/Lib/Text.lean

Texts as lists of characters: white space and control characters, trimming, splitting, lines,
decimal numbers, and file paths.

A text is split at the first occurrence of a separator (`splitOnce`), and a text joined of a
part without the separator and another is split into the two again (`splitOnce_append`).  A path is
compared by its components: empty segments and segments of one dot say nothing, except a leading dot
of a relative path; two dots climb.
-/
import Mathlib.Algebra.Group.Int.Defs
import Mathlib.Algebra.GroupWithZero.Nat
import Mathlib.Data.List.DropRight
import Mathlib.Data.List.SplitOn

namespace Text

/-! ### Characters -/

/-- The characters with the Unicode property White_Space. -/
def isSpace (ch : Char) : Bool :=
  let n := ch.toNat
  (9 ≤ n && n ≤ 13) || n == 32 || n == 0x85 || n == 0xA0 || n == 0x1680
    || (0x2000 ≤ n && n ≤ 0x200A) || n == 0x2028 || n == 0x2029 || n == 0x202F || n == 0x205F
    || n == 0x3000

/-- The characters of the general category Control. -/
def isControl (ch : Char) : Bool :=
  ch.toNat < 32 || (127 ≤ ch.toNat && ch.toNat < 160)

def isDigit (ch : Char) : Bool := '0' ≤ ch && ch ≤ '9'

/-- An ASCII letter or digit. -/
def isAlphanumeric (ch : Char) : Bool :=
  isDigit ch || ('a' ≤ ch && ch ≤ 'z') || ('A' ≤ ch && ch ≤ 'Z')

def utf8Size (text : List Char) : Nat := (text.map Char.utf8Size).sum

/-! ### Trimming and splitting -/

def trimStart (text : List Char) : List Char := text.dropWhile isSpace

def trimEnd (text : List Char) : List Char := text.rdropWhile isSpace

def trim (text : List Char) : List Char := trimEnd (trimStart text)

/-- The two sides of the first occurrence of a separator. -/
def splitOnce (sep : Char) (text : List Char) : Option (List Char × List Char) :=
  match text.dropWhile (· != sep) with
  | [] => none
  | _ :: after => some (text.takeWhile (· != sep), after)

def splitWhitespace (text : List Char) : List (List Char) :=
  (text.splitOnP isSpace).filter fun piece => !piece.isEmpty

/-- The rest after a character, if the text starts with it. -/
def strip (ch : Char) : List Char → Option (List Char)
  | [] => none
  | c :: rest => if c = ch then some rest else none

/-- A line that was ended by a line feed, without the carriage return before it. -/
def stripReturn (line : List Char) : List Char :=
  if line.getLast? = some '\r' then line.dropLast else line

/-- The lines of a text: each ends at a line feed or at the end of the text, and there is no
empty line at the end. -/
def lines (text : List Char) : List (List Char) :=
  let pieces := text.splitOn '\n'
  let ended := pieces.dropLast.map stripReturn
  match pieces.getLast? with
  | none | some [] => ended
  | some last => ended ++ [last]

variable {sep : Char} {text before after : List Char}

theorem splitOnce_append (h : sep ∉ before) :
    splitOnce sep (before ++ sep :: after) = some (before, after) := by
  have hpre : ∀ ch ∈ before, (ch != sep) = true := by
    intro ch hch
    rw [bne_iff_ne]
    rintro rfl
    exact h hch
  have hdr : (before ++ sep :: after).dropWhile (· != sep) = sep :: after := by
    rw [List.dropWhile_append_of_pos hpre, List.dropWhile_cons_of_neg (by simp)]
  have htk : (before ++ sep :: after).takeWhile (· != sep) = before := by
    rw [List.takeWhile_append_of_pos hpre, List.takeWhile_cons_of_neg (by simp),
      List.append_nil]
  simp only [splitOnce, hdr, htk]

theorem eq_of_strip {ch : Char} {rest : List Char} (h : strip ch text = some rest) :
    text = ch :: rest := by
  cases text with
  | nil => cases h
  | cons first tail =>
    rw [strip] at h
    split_ifs at h with hch
    cases h
    rw [hch]

/-- The value of a run of digits, on top of the digits before it. -/
def decimalFrom (value : Nat) : List Char → Option Nat
  | [] => some value
  | ch :: rest =>
    if isDigit ch then decimalFrom (10 * value + (ch.toNat - '0'.toNat)) rest else none

/-- The value of a non-empty run of digits. -/
def decimal (text : List Char) : Option Nat :=
  if text.isEmpty then none else decimalFrom 0 text

/-- An unsigned number as its standard parser reads it: a plus sign is allowed. -/
def unsigned (max : Nat) (text : List Char) : Option Nat :=
  (decimal ((strip '+' text).getD text)).filter (· ≤ max)

/-- A signed number of 64 bits as its standard parser reads it. -/
def signed64 (text : List Char) : Option Int :=
  match strip '-' text with
  | some digits => (decimal digits).bind fun n => if n ≤ 2 ^ 63 then some (-(n : Int)) else none
  | none =>
    (decimal ((strip '+' text).getD text)).bind fun n => if n < 2 ^ 63 then some (n : Int) else none

end Text

/-! ### File paths -/

namespace Paths

inductive Component
  | rootDir
  | curDir
  | parentDir
  | normal (name : List Char)
deriving DecidableEq

def Component.ofSegment (segment : List Char) : Component :=
  if segment = ['.', '.'] then .parentDir else .normal segment

/-- The components of segments that do not begin a relative path. -/
def inner (segments : List (List Char)) : List Component :=
  (segments.filter fun segment => segment ≠ [] ∧ segment ≠ ['.']).map Component.ofSegment

def components (path : List Char) : List Component :=
  match path.splitOn '/' with
  | [] => []
  | first :: rest =>
    if path.head? = some '/' then .rootDir :: inner rest
    else if first = ['.'] then .curDir :: inner rest
    else inner (first :: rest)

/-- A path names a file below a base, with no climb out of it. -/
def within (path base : List Char) : Bool :=
  components path ≠ components base && (components base).isPrefixOf (components path)
    && !(components path).contains .parentDir

example : within "/run/ca/a.crt".toList "/run/ca".toList = true := by decide

example : within "/run/ca/../key".toList "/run/ca".toList = false := by decide

end Paths
