import Crashlog.Checked
import Crashlog.Layout

/-!
# The pager

The EFI application shows a text a screen at a time. The model keeps the
calls of the output protocol that a rendering makes, and every check of a debug
build: unsigned differences, 32-bit sums, cuts of texts at byte positions and
the bounds of a clamp. A call that fails ends the pager with an error and is
not modelled.
-/

namespace Crashlog

namespace Text

/-- The characters before and behind a byte position, unless it is inside a
character or behind the end. -/
def cutChars : List Char → Nat → Option (List Char × List Char)
  | chars, 0 => some ([], chars)
  | [], _ + 1 => none
  | c :: rest, position + 1 =>
      if c.utf8Size ≤ position + 1 then
        (cutChars rest (position + 1 - c.utf8Size)).map fun (before, behind) => (c :: before, behind)
      else none

def cutAt (text : String) (position : Nat) : Option (String × String) :=
  (cutChars text.toList position).map fun (before, behind) => (String.ofList before, String.ofList behind)

def contains (text pattern : String) : Bool := pattern.toList <:+: text.toList

/-- The pieces of a text, each ending with the pattern but possibly the last.
The number counts the characters of a match that are still to come. -/
def splitInclusiveLoop (pattern : List Char) : Nat → List Char → List Char → List (List Char)
  | _, piece, [] => if piece.isEmpty then [] else [piece]
  | 0, piece, c :: rest =>
      if pattern.isPrefixOf (c :: rest) then
        if pattern.length ≤ 1 then (piece ++ [c]) :: splitInclusiveLoop pattern 0 [] rest
        else splitInclusiveLoop pattern (pattern.length - 1) (piece ++ [c]) rest
      else splitInclusiveLoop pattern 0 (piece ++ [c]) rest
  | 1, piece, c :: rest => (piece ++ [c]) :: splitInclusiveLoop pattern 0 [] rest
  | left + 2, piece, c :: rest => splitInclusiveLoop pattern (left + 1) (piece ++ [c]) rest

def splitInclusive (text pattern : String) : List String :=
  (splitInclusiveLoop pattern.toList 0 [] text.toList).map String.ofList

/-- The matches at the end are removed one after the other. -/
def trimEndMatchesLoop (pattern text : List Char) : List Char :=
  if pattern ≠ [] ∧ pattern <:+ text ∧ pattern.length ≤ text.length then
    trimEndMatchesLoop pattern (text.take (text.length - pattern.length))
  else text
termination_by text.length
decreasing_by
  rename_i found
  have nonempty := List.length_pos_of_ne_nil found.1
  rw [List.length_take]
  omega

def trimEndMatches (text pattern : String) : String :=
  String.ofList (trimEndMatchesLoop pattern.toList text.toList)

def alignRight (width : Nat) (text : String) : String :=
  String.ofList (List.replicate (width - text.toList.length) ' ') ++ text

end Text

/-! ## The state of the pager -/

structure Window where
  line : Nat := 0
  columns : Nat := 80
  rows : Nat := 25
  deriving DecidableEq, Repr

inductive PagerMode where
  | view
  | search
  deriving DecidableEq, Repr

structure Pager where
  lines : List String
  /-- A vector has fewer than 2 ^ 63 items. -/
  counted : lines.length < 2 ^ 63
  window : Window := {}
  mode : PagerMode := .view
  searchPattern : String := ""
  deriving DecidableEq, Repr

inductive Color where
  | black
  | lightGray
  | yellow
  | white
  deriving DecidableEq, Repr

inductive OutputCall where
  | clear
  | setColor (foreground background : Color)
  | setCursorPosition (column row : Nat)
  | write (text : String)
  deriving DecidableEq, Repr

/-- The characters of the input protocol. -/
abbrev Char16 := { c : Char // c.toNat < 2 ^ 16 }

inductive ScanCode where
  | up
  | down
  | home
  | endKey
  | pageUp
  | pageDown
  | delete
  | escape
  | other (code : UInt16)
  deriving DecidableEq, Repr

inductive Key where
  | printable (k : Char16)
  | special (code : ScanCode)
  deriving DecidableEq, Repr

inductive Command where
  | down
  | up
  | pageDown
  | pageUp
  | top
  | bottom
  | quit
  | refresh
  | next
  | previous
  deriving DecidableEq, Repr

namespace Keys

def QUIT : Char := 'q'
def DOWN : Char := 'j'
def UP : Char := 'k'
def PAGE_DOWN : Char := ' '
def TOP : Char := 'g'
def BOTTOM : Char := 'G'
def SEARCH : Char := '/'
def NEXT : Char := 'n'
def PREV : Char := 'N'

end Keys

namespace Pager

def SEARCH_PATTERN_SIZE : Nat := 32

def new (text : String) (counted : (Text.lines text).length < 2 ^ 63) (window : Window) : Pager where
  lines := Text.lines text
  counted
  window

def atLine (pager : Pager) (line : Nat) : Pager := { pager with window := { pager.window with line } }

/-! ## Input -/

def searchMode (pager : Pager) : Key → Option Command × Pager
  | .printable k =>
      if k.val = '\n' ∨ k.val = '\r' then (some .next, { pager with mode := .view })
      else (some .refresh, { pager with searchPattern := pager.searchPattern.push k.val })
  | .special .delete =>
      (some .refresh, { pager with searchPattern := String.ofList pager.searchPattern.toList.dropLast })
  | .special _ => (none, pager)

def viewMode (pager : Pager) : Key → Option Command × Pager
  | .printable k =>
      if k.val = Keys.UP then (some .up, pager)
      else if k.val = '\n' ∨ k.val = '\r' ∨ k.val = Keys.DOWN then (some .down, pager)
      else if k.val = Keys.QUIT then (some .quit, pager)
      else if k.val = Keys.PAGE_DOWN then (some .pageDown, pager)
      else if k.val = Keys.TOP then (some .top, pager)
      else if k.val = Keys.BOTTOM then (some .bottom, pager)
      else if k.val = Keys.NEXT then (some .next, pager)
      else if k.val = Keys.PREV then (some .previous, pager)
      else if k.val = Keys.SEARCH then (some .refresh, { pager with searchPattern := "", mode := .search })
      else (none, pager)
  | .special .up => (some .up, pager)
  | .special .down => (some .down, pager)
  | .special .home => (some .top, pager)
  | .special .endKey => (some .bottom, pager)
  | .special .pageDown => (some .pageDown, pager)
  | .special .pageUp => (some .pageUp, pager)
  | .special .escape => (some .quit, pager)
  | .special _ => (none, pager)

def nextCommand (pager : Pager) (key : Key) : Option Command × Pager :=
  match pager.mode with
  | .view => pager.viewMode key
  | .search => pager.searchMode key

/-! ## Rendering -/

/-- A piece of a line with the match at its end in yellow. -/
def highlight (pattern piece : String) : List OutputCall :=
  [.setColor .lightGray .black, .write (Text.trimEndMatches piece pattern)] ++
    if pattern.toList <:+ piece.toList then [.setColor .yellow .black, .write pattern] else []

def renderLine (pager : Pager) (idx : Nat) : Checked (List OutputCall) :=
  match pager.lines[idx]? with
  | none => .ok [.write "~\n"]
  | some line =>
      match Text.cutAt line (min pager.window.columns line.utf8ByteSize) with
      | none => .error .charBoundary
      | some (line, _) =>
          if pager.searchPattern = "" then .ok [.write (line ++ "\n")]
          else .ok ((Text.splitInclusive line pager.searchPattern).flatMap (highlight pager.searchPattern) ++
            [.setColor .lightGray .black, .write "\n"])

def renderPage (pager : Pager) : Checked (List OutputCall) := do
  Checked.fits 64 (pager.window.line + pager.window.rows)
  let stop ← Checked.sub (pager.window.line + pager.window.rows) 1
  let calls ← (List.range' pager.window.line (stop - pager.window.line)).mapM pager.renderLine
  .ok calls.flatten

def renderKeyDescr (primaryKey : Char) (secondaryKey : Option Char) (descr : String) : List OutputCall :=
  let keys := match secondaryKey with
    | some secondaryKey => String.singleton primaryKey ++ "/" ++ String.singleton secondaryKey ++ " "
    | none => String.singleton primaryKey ++ " "
  [.setColor .yellow .black, .write keys, .setColor .white .black, .write (descr ++ " "),
    .setColor .lightGray .black]

def renderSearchPattern (pager : Pager) : Checked (List OutputCall) := do
  let label := [.setColor .yellow .black, .write "Search: ", .setColor .lightGray .black]
  if pager.searchPattern.utf8ByteSize < SEARCH_PATTERN_SIZE then .ok (label ++ [.write pager.searchPattern])
  else
    let start ← Checked.sub pager.searchPattern.utf8ByteSize SEARCH_PATTERN_SIZE
    match Text.cutAt pager.searchPattern (start + 3) with
    | none => .error .charBoundary
    | some (_, shown) => .ok (label ++ [.write ("..." ++ shown)])

/-- The part of the text above the window. -/
def percent (pager : Pager) : Checked Nat := do
  let rest ← Checked.sub pager.lines.length pager.window.rows
  Checked.fits 64 (rest + 1)
  Checked.fits 64 (100 * min pager.window.line (rest + 1))
  Checked.require (rest + 1 ≠ 0) .divisionByZero
  .ok (100 * min pager.window.line (rest + 1) / (rest + 1))

def renderLineStatus (pager : Pager) : Checked (List OutputCall) := do
  let percent ← pager.percent
  let column ← Checked.sub pager.window.columns 12
  let row ← Checked.sub pager.window.rows 1
  Checked.fits 64 (pager.window.line + 1)
  .ok [.setCursorPosition column row,
    .write (Text.alignRight 6 (toString (pager.window.line + 1)) ++ " " ++ Text.alignRight 3 (toString percent) ++ "%")]

def renderStatusBar (pager : Pager) : Checked (List OutputCall) :=
  match pager.mode with
  | .view => do
      let status ← pager.renderLineStatus
      .ok (renderKeyDescr Keys.QUIT none "Quit" ++ renderKeyDescr Keys.DOWN (some Keys.UP) "Down/Up" ++
        renderKeyDescr Keys.TOP (some Keys.BOTTOM) "Top/Bottom" ++ renderKeyDescr Keys.SEARCH none "Search" ++
        (if pager.searchPattern = "" then []
          else renderKeyDescr Keys.NEXT (some Keys.PREV) "Next/Previous") ++ status)
  | .search => pager.renderSearchPattern

def clearStatusBar (pager : Pager) : Checked (List OutputCall) := do
  let row ← Checked.sub pager.window.rows 1
  let count ← Checked.sub pager.window.columns 1
  .ok ([.setCursorPosition 0 row] ++ List.replicate count (.write " ") ++ [.setCursorPosition 0 row])

def render (pager : Pager) : Checked (List OutputCall) := do
  let page ← pager.renderPage
  let statusBar ← pager.renderStatusBar
  .ok ([.clear] ++ page ++ statusBar)

/-! ## Commands -/

def search (pager : Pager) (indexes : List Nat) : Pager :=
  match indexes.find? fun idx => pager.lines[idx]?.any (Text.contains · pager.searchPattern) with
  | some idx => pager.atLine idx
  | none => pager

/-- An unsigned number cast to 32 bits with a sign. -/
def asI32 (value : Nat) : Int := (Int32.ofNat value).toInt

def IsI32 (value : Int) : Prop := -2 ^ 31 ≤ value ∧ value < 2 ^ 31

instance IsI32.decidable (value : Int) : Decidable (IsI32 value) := inferInstanceAs (Decidable (_ ∧ _))

def moveWindow (pager : Pager) (delta : Int) : Checked Pager := do
  let moved := asI32 pager.window.line + delta
  Checked.require (IsI32 moved) .overflow
  let last := asI32 pager.lines.length - 1
  Checked.require (IsI32 last) .overflow
  Checked.require (0 ≤ last) .clampBounds
  .ok (pager.atLine (max 0 (min moved last)).toNat)

/-- The lines of a page but two. -/
def pageSize (pager : Pager) : Checked Int := do
  let size := asI32 pager.window.rows - 2
  Checked.require (IsI32 size) .overflow
  .ok size

/-- What a command does to the pager; after the last one there is none. -/
def update (pager : Pager) : Command → Checked (Option Pager)
  | .top => .ok (some (pager.atLine 0))
  | .bottom => do
      let above ← Checked.sub pager.window.rows 1
      .ok (some (pager.atLine (pager.lines.length - above)))
  | .down => (pager.moveWindow 1).map some
  | .up => (pager.moveWindow (-1)).map some
  | .pageUp => do
      let size ← pager.pageSize
      Checked.require (IsI32 (-size)) .overflow
      (pager.moveWindow (-size)).map some
  | .pageDown => do
      let size ← pager.pageSize
      (pager.moveWindow size).map some
  | .next => do
      Checked.fits 64 (pager.window.line + 1)
      .ok (some (pager.search
        (List.range' (pager.window.line + 1) (pager.lines.length - (pager.window.line + 1)))))
  | .previous => .ok (some (pager.search (List.range pager.window.line).reverse))
  | .quit => do
      let _ ← pager.clearStatusBar
      .ok none
  | .refresh => .ok (some pager)

end Pager

end Crashlog
