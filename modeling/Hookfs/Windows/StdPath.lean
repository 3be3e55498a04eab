import Hookfs.Windows.Paths

/-!
# `std::path` on Windows

Prefixes, components, `parent`, `file_name` and `join`, as far as the
Windows shims and the mount layer use them.
-/

namespace Hookfs.Windows

open Hookfs.Lib

/-! ## Prefixes -/

/-- The kinds of `std::path::Prefix`. -/
inductive PrefixKind where
  | verbatim
  | verbatimUnc
  | verbatimDisk
  | deviceNs
  | unc
  | disk
  deriving DecidableEq, Repr

/-- A parsed prefix: its kind and its length. -/
structure PathPrefix where
  kind : PrefixKind
  len : Nat
  deriving DecidableEq, Repr

namespace PrefixKind

def isVerbatim : PrefixKind → Bool
  | .verbatim => true
  | .verbatimUnc => true
  | .verbatimDisk => true
  | _ => false

def isDrive : PrefixKind → Bool
  | .disk => true
  | _ => false

end PrefixKind

/-- What separates components below a verbatim prefix, and elsewhere. -/
def separates (verbatim : Bool) (char : Char) : Bool :=
  if verbatim then char = '\\' else isSep char

/-- `parse_next_component`: up to the separator, and behind it. -/
def nextComponent (verbatim : Bool) (path : Text) : Text × Text :=
  let comp := path.takeWhile fun char => !separates verbatim char
  (comp, path.drop (comp.length + 1))

/-- `parse_drive`. -/
def hasDrive (path : Text) : Bool :=
  match path with
  | letter :: ':' :: _ => letter.isAlpha
  | _ => false

/-- `parse_drive_exact`. -/
def hasExactDrive (path : Text) : Bool :=
  hasDrive path && (path.drop 2).head?.all isSep

def shareLength (verbatim : Bool) (path : Text) : Nat :=
  let (server, rest) := nextComponent verbatim path
  let (share, _) := nextComponent verbatim rest
  server.length + if share.isEmpty then 0 else 1 + share.length

/-- The prefix of a path behind `\\?\`. -/
def verbatimPrefix (path : Text) : PathPrefix :=
  let body := path.drop 4
  if (body.take 4).map (fun char => if char = '/' then '\\' else char) =
      "UNC\\".toList then
    ⟨.verbatimUnc, 8 + shareLength true (path.drop 8)⟩
  else if hasExactDrive body then ⟨.verbatimDisk, 6⟩
  else ⟨.verbatim, 4 + (nextComponent true body).1.length⟩

/-- `parse_prefix`; a verbatim prefix is written with `\` only. -/
def parsePrefix (path : Text) : Option PathPrefix :=
  match path with
  | '\\' :: '\\' :: '?' :: '\\' :: _ => some (verbatimPrefix path)
  | first :: second :: rest =>
      if isSep first && isSep second then
        match rest with
        | '.' :: third :: body =>
            if isSep third then
              some ⟨.deviceNs, 4 + (nextComponent false body).1.length⟩
            else uncPrefix rest
        | _ => uncPrefix rest
      else if hasDrive path then some ⟨.disk, 2⟩
      else none
  | _ => none
where
  uncPrefix (rest : Text) : Option PathPrefix :=
    let (server, behind) := nextComponent false rest
    let (share, _) := nextComponent false behind
    if server.isEmpty || share.isEmpty then none
    else some ⟨.unc, 2 + shareLength false rest⟩

def prefixLength (path : Text) : Nat :=
  match parsePrefix path with
  | none => 0
  | some lead => lead.len

def underVerbatim (path : Text) : Bool :=
  (parsePrefix path).any (·.kind.isVerbatim)

def hasPhysicalRoot (path : Text) : Bool :=
  (path.drop (prefixLength path)).head?.any isSep

/-- A prefix other than a drive has a root of its own. -/
def hasImplicitRoot (path : Text) : Bool :=
  (parsePrefix path).any fun lead => !lead.kind.isDrive

def hasRoot (path : Text) : Bool :=
  hasPhysicalRoot path || hasImplicitRoot path

/-- `Path::is_absolute`. -/
def hasPrefixAndRoot (path : Text) : Bool :=
  (parsePrefix path).isSome && hasRoot path

/-- `include_cur_dir`: a leading `.` of a path without a root. -/
def includeCurDir (path : Text) : Bool :=
  !hasRoot path &&
    match path.drop (prefixLength path) with
    | ['.'] => true
    | '.' :: char :: _ => separates (underVerbatim path) char
    | _ => false

/-! ## Components -/

/-- The length before the first component that can be split off. -/
def beforeBody (path : Text) : Nat :=
  prefixLength path + (if hasPhysicalRoot path then 1 else 0) +
    if includeCurDir path then 1 else 0

/-- Pieces that are no component; below a verbatim prefix `.` is one. -/
def isBlank (verbatim : Bool) (piece : Text) : Bool :=
  piece = [] || (piece = ['.'] && !verbatim)

/-- The pieces of the body, without blank ones at the end. -/
def pieces (path : Text) : List Text :=
  ((path.drop (beforeBody path)).splitOnP
    (separates (underVerbatim path))).rdropWhile
      (isBlank (underVerbatim path))

/-- `Path::parent`: the path up to the component before the last one. -/
def parent (path : Text) : Option Text :=
  match pieces path with
  | [] =>
      if includeCurDir path then some (path.take (prefixLength path))
      else none
  | first :: rest =>
      let left := (first :: rest).dropLast.rdropWhile
        (isBlank (underVerbatim path))
      some (path.take (beforeBody path + (['\\'].intercalate left).length))

def fileName (path : Text) : Option Text :=
  match (pieces path).getLast? with
  | none => none
  | some piece =>
      if piece = ['.', '.'] || piece = ['.'] then none else some piece

inductive Component where
  | lead (text : Text) (drive : Bool)
  | rootDir
  | curDir
  | parentDir
  | normal (text : Text)
  deriving DecidableEq, Repr

def components (path : Text) : List Component :=
  let lead := match parsePrefix path with
    | none => []
    | some found => [.lead (path.take found.len) found.kind.isDrive]
  let root :=
    if hasPhysicalRoot path ||
        (hasImplicitRoot path && !underVerbatim path) then
      [.rootDir]
    else []
  let dot := if includeCurDir path then [.curDir] else []
  let body := (pieces path).filterMap fun piece =>
    if isBlank (underVerbatim path) piece then none
    else if piece = ['.'] then some .curDir
    else if piece = ['.', '.'] then some .parentDir
    else some (.normal piece)
  lead ++ root ++ dot ++ body

/-! ## Joining -/

/-- One component of the pushed path, onto the components of a verbatim
base. -/
def pushComponent (buffer : List Component) : Component → List Component
  | .rootDir => buffer.take 1 ++ [.rootDir]
  | .curDir => buffer
  | .parentDir =>
      match buffer.getLast? with
      | some (.normal _) => buffer.dropLast
      | _ => buffer
  | other => buffer ++ [other]

def renderComponents : Bool → List Component → Text
  | _, [] => []
  | needSep, comp :: rest =>
      let sep := if needSep && comp ≠ .rootDir then ['\\'] else []
      match comp with
      | .lead text drive =>
          sep ++ text ++ renderComponents (!drive && !text.isEmpty) rest
      | .rootDir => sep ++ ['\\'] ++ renderComponents false rest
      | .curDir => sep ++ ['.'] ++ renderComponents true rest
      | .parentDir => sep ++ ['.', '.'] ++ renderComponents true rest
      | .normal text => sep ++ text ++ renderComponents true rest

def join (base path : Text) : Text :=
  if hasPrefixAndRoot path || (parsePrefix path).isSome then path
  else if underVerbatim base && !path.isEmpty then
    renderComponents false
      ((components path).foldl pushComponent (components base))
  else if hasRoot path then base.take (prefixLength base) ++ path
  else
    -- no separator behind `C:` alone
    let bareDrive := (parsePrefix base).any fun lead =>
      lead.kind.isDrive && lead.len = base.length
    let needSep := base.getLast?.any (fun char => !isSep char) && !bareDrive
    base ++ (if needSep then ['\\'] else []) ++ path

end Hookfs.Windows
