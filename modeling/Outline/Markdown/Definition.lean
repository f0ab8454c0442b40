import Outline.Markdown.Link

/-!
# Link definitions

A paragraph may begin with definitions: a label, a colon, a destination and perhaps a title.  A
definition takes whole lines.  If what follows the destination on its own line is no title there
is no definition; on the next line it is simply not part of it.

* `definition?`: the definition at the front of the text of a paragraph.
-/

namespace Outline.Markdown

/-- What follows a title that ends its line. -/
def afterTitleLine? (t : Text) : Option Text := (afterTitle? t).bind afterBlankLine?

/-- What follows a destination and, if there is one, the title after it. -/
def afterDefinition? (t : Text) : Option Text :=
  let next := skipBlanks t
  match afterLineEnd? next with
  | some below => some ((afterTitleLine? (skipBlanks below)).getD below)
  | none => if next.length = t.length then none else afterTitleLine? next

/-- The label of the definition at the front of the text of a paragraph, and the text behind the
definition. -/
def definition? (t : Text) : Option (Label × Text) := do
  let (label, after) ← label? t
  match after with
  | ':' :: rest =>
    let target := skipGap rest
    let after ← afterDestination? target
    if after.length = target.length then none
    else
      let behind ← afterDefinition? after
      return (label, behind)
  | _ => none

end Outline.Markdown
