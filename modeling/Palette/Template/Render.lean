import Palette.Template.Escape
import Palette.Template.Tree

/-!
# Rendering

A tree is rendered against a context, which gives the text of a field, if there
is one, and says whether the field opens a section.  A field without a text
renders as nothing.  Sections are rendered to any depth: where the stack of an
interpreter ends is left to the machine of a run.
-/

namespace Palette
namespace Template

structure Context where
  renderField : String → Option Phrase
  fieldTruthy : String → Bool

/-- Whether a section of a gate shows its body. -/
def Context.opens (context : Context) (gate : Gate) (name : String) : Bool :=
  match gate with
  | .found => context.fieldTruthy name
  | .missing => !context.fieldTruthy name

def Context.rawValue (context : Context) (name : String) : Phrase :=
  (context.renderField name).getD []

mutual

def renderNode (context : Context) : Node → Phrase
  | .text chars => Phrase.ofChars chars
  | .var name => escape (context.rawValue name)
  | .raw name => context.rawValue name
  | .block gate name children =>
      if context.opens gate name then renderNodes context children else []

def renderNodes (context : Context) : List Node → Phrase
  | [] => []
  | node :: rest => renderNode context node ++ renderNodes context rest

end

/-- The rendering of a source against a context. -/
def render (source : String) (context : Context) : Except Fault Phrase :=
  match parse source with
  | .error fault => .error fault
  | .ok nodes => .ok (renderNodes context nodes)

end Template
end Palette
