import Hookfs.Path.Decode
import Hookfs.Path.Posix

/-!
# Windows paths

The Windows forms of the lexical functions of `namespace` and `router`, the
decoders of wide and ANSI strings, and the parts of the standard library's
`Path` that the Windows shims use.
-/

namespace Hookfs.Windows

open Hookfs.Lib Hookfs.Posix

/-! ## Decoding -/

/-- A `PCWSTR`: null, or the code units from there on; behind the listed
units stands the terminator. -/
abbrev WStr := Option (List UInt16)

/-- One character at a time; a surrogate without its other half gives
U+FFFD. -/
def utf16Loop : Nat → List UInt16 → Text
  | 0, _ => []
  | _, [] => []
  | rounds + 1, unit :: rest =>
      if unit < 0xD800 || 0xDFFF < unit then
        Char.ofNat unit.toNat :: utf16Loop rounds rest
      else
        match rest with
        | low :: after =>
            if unit ≤ 0xDBFF && 0xDC00 ≤ low && low ≤ 0xDFFF then
              Char.ofNat (0x10000 + (unit.toNat - 0xD800) * 0x400 +
                (low.toNat - 0xDC00)) :: utf16Loop rounds after
            else '\uFFFD' :: utf16Loop rounds rest
        | [] => ['\uFFFD']

def fromUtf16Lossy (units : List UInt16) : Text :=
  utf16Loop units.length units

/-- `decode_wide` and `from_utf16_lossy`, as every wide shim applies them. -/
def decodeWide (ptr : WStr) : Option Text :=
  match ptr with
  | none => none
  | some units => (scanUntil 0 0x8000 units).map fromUtf16Lossy

def decodeAnsi (ptr : CStr) : Option Text :=
  match ptr with
  | none => none
  | some bytes => (scanUntil 0 0x8000 bytes).map fromUtf8Lossy

def encodeUtf16 (text : Text) : List UInt16 :=
  text.flatMap fun char =>
    if char.toNat < 0x10000 then [char.toNat.toUInt16]
    else
      [(0xD800 + (char.toNat - 0x10000) / 0x400).toUInt16,
        (0xDC00 + (char.toNat - 0x10000) % 0x400).toUInt16]

/-! ## The lexical functions -/

def isSep (char : Char) : Bool :=
  char = '\\' || char = '/'

def isAbsolute (text : Text) : Bool :=
  match text with
  | '\\' :: '\\' :: _ => true
  | '/' :: '/' :: _ => true
  | letter :: ':' :: sep :: _ => letter.isAlpha && isSep sep
  | _ => false

def isDotComponent (comp : Text) : Bool :=
  !comp.isEmpty && comp.all (fun char => char = '.' || char = ' ') &&
    comp.contains '.'

/-- `trim_end_matches([' ', '.'])`. -/
def trimEnd (raw : Text) : Text :=
  raw.rdropWhile fun char => char = ' ' || char = '.'

/-- What `is_lexically_safe` asks of one component. -/
def isSafeComponent (raw : Text) : Bool :=
  let comp := trimEnd raw
  !isDotComponent raw &&
    (!comp.contains ':' ||
      ((Text.utf8 comp).length = 2 && comp.head?.any Char.isAlpha))

def isLexicallySafe (decoded : Text) : Bool :=
  !decoded.contains '\x00' && (decoded.splitOnP isSep).all isSafeComponent

/-- `char::to_lowercase`: the Unicode mapping, which on ASCII is the ASCII
one. -/
structure CaseMap where
  lower : Char → Text
  ascii : ∀ char, char.toNat < 128 → lower char = [char.toLower]

/-- The mapping that leaves everything beyond ASCII alone. -/
def CaseMap.asciiOnly : CaseMap where
  lower char := [char.toLower]
  ascii _ _ := rfl

/-- Take `\\?\UNC\` off, as often as the rest brings it back. -/
def unwrapUnc : Nat → Text → Text
  | 0, input => input
  | rounds + 1, input =>
      match stripPrefix "\\\\?\\UNC\\".toList input with
      | some rest => unwrapUnc rounds ('\\' :: '\\' :: rest)
      | none => input

/-- The collapsing loop of `normalize_key_str`. -/
def collapse (cases : CaseMap) : Bool → Text → Text
  | _, [] => []
  | prevSep, char :: rest =>
      if isSep char then
        if prevSep then collapse cases true rest
        else '\\' :: collapse cases true rest
      else cases.lower char ++ collapse cases false rest

/-- Pop a trailing `\` of more than three bytes. -/
def dropTrailing (out : Text) : Text :=
  if 3 < (Text.utf8 out).length ∧ out.getLast? = some '\\' then out.dropLast
  else out

/-- `normalize_key_str`; every round of the recursion shortens the input. -/
def normalizeKeyStr (cases : CaseMap) (input : Text) : Text :=
  let body := unwrapUnc input.length input
  dropTrailing (collapse cases false
    ((stripPrefix "\\\\?\\".toList body).getD body))

def keyHasPrefix (key lead : Text) : Bool :=
  match stripPrefix lead key with
  | none => false
  | some rest => rest.isEmpty || rest.head? = some '\\'

/-! ## Wildcards -/

/-- The loop of `matches_from`: the final index into the pattern, or none
for `return false`. -/
def matchesLoop (pat txt : Text) :
    Nat → Nat → Nat → Option Nat → Nat → Option Nat
  | 0, _, _, _, _ => none
  | rounds + 1, pi, ti, starPat, starTxt =>
      if ti < txt.length then
        if pat[pi]? = some '*' then
          matchesLoop pat txt rounds (pi + 1) ti (some pi) ti
        else if pat[pi]? = some '?' ∨ (pi < pat.length ∧ pat[pi]? = txt[ti]?) then
          matchesLoop pat txt rounds (pi + 1) (ti + 1) starPat starTxt
        else
          match starPat with
          | some star =>
              matchesLoop pat txt rounds (star + 1) (starTxt + 1) starPat
                (starTxt + 1)
          | none => none
      else some pi

/-- `matches_from`; the loop goes back at most once for each character. -/
def matchesFrom (pat txt : Text) : Bool :=
  match matchesLoop pat txt ((txt.length + 1) * (pat.length + 2)) 0 0 none
    0 with
  | none => false
  | some pi => (pat.drop pi).all (· = '*')

def wildcardMatch (cases : CaseMap) (pattern name : Text) : Bool :=
  matchesFrom (pattern.flatMap cases.lower) (name.flatMap cases.lower)

end Hookfs.Windows
