import ShapeExport.Config.Basic
import ShapeExport.Shape.Basic
import ShapeExport.Text.Blank
import ShapeExport.Text.Pieces

/-!
# Comments

* `commentLines` : documentation and a deprecation marker as lines;
* `commentBlock` : the comment above a declaration, with its line break;
* `inlineComment` : the comment in front of a member, on one line. Only the JSDoc style has one;
* `escapeComment` : keeps a text from closing the comment that it stands in.
-/

namespace ShapeExport

namespace Deprecation

/-- The text of an option that is there and not empty. -/
def given (o : Option String) : Option String := o.filter (!·.isEmpty)

/-- The tag of a deprecation, in a comment. -/
def tagLine (d : Deprecation) : String :=
  "@deprecated" ++ ((given d.note).map fun s => " " ++ Text.trim s).getD ""
    ++ ((given d.since).map fun s => " since " ++ Text.trim s).getD ""

/-- The marker in words. -/
def text (d : Deprecation) : String :=
  " ".intercalate ("deprecated" :: ((given d.note).toList ++ ((given d.since).map ("since " ++ ·)).toList))

end Deprecation

/-- Documentation may hold several lines in one item. -/
def docLines (docs : List String) : List String :=
  docs.flatMap fun doc => (Text.split '\n' doc).map Text.trimEnd

def commentLines (docs : List String) (deprecation : Option Deprecation) : List String :=
  docLines docs ++ (deprecation.map (·.tagLine)).toList

def escapeComment (s : String) : String := Text.replace s "*/" "*\\/"

/-- A line of a comment: a mark and a text, without blanks at the end. -/
def commentLine (mark line : String) : String := Text.trimEnd (mark ++ line) ++ "\n"

def commentBlock (style : CommentStyle) (indent : String) (docs : List String)
    (deprecation : Option Deprecation) : String :=
  match commentLines docs deprecation, style with
  | [], _ | _, .none => ""
  | lines, .line => String.join (lines.map (commentLine (indent ++ "// ")))
  | lines, .jsdoc =>
    indent ++ "/**\n" ++ String.join (lines.map fun l => commentLine (indent ++ " * ") (escapeComment l))
      ++ indent ++ " */\n"

/-- The lines of a comment as one line. -/
def joinLines (lines : List String) : String :=
  " ".intercalate ((lines.map Text.trim).filter (!·.isEmpty))

def inlineComment (style : CommentStyle) (docs : List String) (deprecation : Option Deprecation) :
    String :=
  match commentLines docs deprecation, style with
  | line :: lines, .jsdoc => "/** " ++ escapeComment (joinLines (line :: lines)) ++ " */ "
  | _, _ => ""

end ShapeExport
