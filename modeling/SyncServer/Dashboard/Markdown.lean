import Mathlib.Data.List.DropRight
import SyncServer.Base.Regex

/-! # Markdown in the dashboard

The renderer of `simple-markdown.ts`. It escapes a line, and then rewrites it with four regular
expressions one after another, each on what the ones before it made.
-/

namespace SyncServer.Dashboard

/-- A string of JavaScript is a row of UTF-16 code units. -/
abbrev JsString := List UInt16

instance {p : UInt16 → Prop} [DecidablePred p] (s : JsString) : Decidable (∀ c ∈ s, p c) :=
  List.decidableBAll p s

/-- The code units of a text of the source. -/
def js (s : String) : JsString := s.toList.map (fun c => c.toNat.toUInt16)

/-! ## The methods of strings -/

/-- What `.` does not match. -/
def isLineTerminator (c : UInt16) : Bool := c ∈ ([10, 13, 0x2028, 0x2029] : List UInt16)

/-- What `trim` takes off. -/
def isWhiteSpace (c : UInt16) : Bool :=
  isLineTerminator c || c ∈ ([9, 11, 12, 32, 0xA0, 0x1680, 0x202F, 0x205F, 0x3000, 0xFEFF] :
    List UInt16) || (0x2000 ≤ c && c ≤ 0x200A)

def trim (s : JsString) : JsString := (s.dropWhile isWhiteSpace).rdropWhile isWhiteSpace

def literal (text : JsString) : List (Piece UInt16) := text.map (fun c => .one (· == c))

/-- `replaceAll` with texts. -/
def replaceText (s text replacement : JsString) : JsString :=
  Piece.replaceAll (literal text) (fun _ => replacement) s

/-! ## Lines -/

def escapeHtml (value : JsString) : JsString :=
  let value := replaceText value (js "&") (js "&amp;")
  let value := replaceText value (js "<") (js "&lt;")
  let value := replaceText value (js ">") (js "&gt;")
  let value := replaceText value (js "\"") (js "&quot;")
  replaceText value (js "'") (js "&#39;")

def safeLink (url : JsString) : JsString :=
  let trimmed := trim url
  if (js "https://").isPrefixOf trimmed || (js "http://").isPrefixOf trimmed then trimmed
  else js "#"

/-- `(.+?)` in a regular expression. -/
def dot : Piece UInt16 := .shortest (fun c => !isLineTerminator c)

/-- A pattern with the same text on both sides. -/
def between (d : JsString) (inner : Piece UInt16) : List (Piece UInt16) :=
  literal d ++ [inner] ++ literal d

def strongPattern : List (Piece UInt16) := between (js "**") dot

def emPattern : List (Piece UInt16) := between (js "*") dot

def codePattern : List (Piece UInt16) := between (js "`") (.longest (· != 96))

def linkPattern : List (Piece UInt16) :=
  literal (js "[") ++ [dot] ++ literal (js "](") ++ [dot] ++ literal (js ")")

def group (captures : List JsString) (n : Nat) : JsString := captures.getD (n - 1) []

/-- The opening tag of a link. -/
def anchor (href : JsString) : JsString :=
  js "<a href=\"" ++ href ++ js "\" target=\"_blank\" rel=\"noopener noreferrer\">"

/-- `replace` with a text around the first group. -/
def enclose (pattern : List (Piece UInt16)) (before after s : JsString) : JsString :=
  Piece.replaceAll pattern (fun m => before ++ group m 1 ++ after) s

/-- The first three rewrites of `inlineMarkdown`. -/
def emphasise (line : JsString) : JsString :=
  let output := escapeHtml line
  let output := enclose strongPattern (js "<strong>") (js "</strong>") output
  let output := enclose emPattern (js "<em>") (js "</em>") output
  enclose codePattern (js "<code>") (js "</code>") output

def inlineMarkdown (line : JsString) : JsString :=
  Piece.replaceAll linkPattern
    (fun m => anchor (escapeHtml (safeLink (group m 2))) ++ group m 1 ++ js "</a>")
    (emphasise line)

/-! ## Blocks -/

structure Rendering where
  html : List JsString
  inList : Bool
deriving DecidableEq, Repr

namespace Rendering

def push (r : Rendering) (block : JsString) : Rendering := { r with html := r.html ++ [block] }

def openList (r : Rendering) : Rendering :=
  if r.inList then r else { r.push (js "<ul>") with inList := true }

def closeList (r : Rendering) : Rendering :=
  if r.inList then { r.push (js "</ul>") with inList := false } else r

def line (r : Rendering) (line : JsString) : Rendering :=
  let trimmed := trim line
  if trimmed = [] then r.closeList
  else if (js "- ").isPrefixOf trimmed then
    r.openList.push (js "<li>" ++ inlineMarkdown (trim (trimmed.drop 2)) ++ js "</li>")
  else
    let r := r.closeList
    if (js "### ").isPrefixOf trimmed then
      r.push (js "<h3>" ++ inlineMarkdown (trim (trimmed.drop 4)) ++ js "</h3>")
    else if (js "## ").isPrefixOf trimmed then
      r.push (js "<h2>" ++ inlineMarkdown (trim (trimmed.drop 3)) ++ js "</h2>")
    else if (js "# ").isPrefixOf trimmed then
      r.push (js "<h1>" ++ inlineMarkdown (trim (trimmed.drop 2)) ++ js "</h1>")
    else r.push (js "<p>" ++ inlineMarkdown trimmed ++ js "</p>")

end Rendering

def linesOf (markdown : JsString) : List JsString :=
  (replaceText markdown (js "\r\n") (js "\n")).splitOn 10

def renderSimpleMarkdownToHtml (markdown : JsString) : JsString :=
  (js "\n").intercalate ((linesOf markdown).foldl Rendering.line ⟨[], false⟩).closeList.html

example : renderSimpleMarkdownToHtml (js "# A & B\n- *x*\r\n- y") =
    js "<h1>A &amp; B</h1>\n<ul>\n<li><em>x</em></li>\n<li>y</li>\n</ul>" := by
  decide +kernel

example : renderSimpleMarkdownToHtml (js "[**a**](https://b.c)") =
    js ("<p><a href=\"https://b.c\" target=\"_blank\" rel=\"noopener noreferrer\">" ++
      "<strong>a</strong></a></p>") := by
  decide +kernel

end SyncServer.Dashboard
