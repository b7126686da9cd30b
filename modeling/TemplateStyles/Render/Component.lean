import TemplateStyles.Render.Metadata
/-!
# Components

Host components, the wrappers around other components, and styled components. A styled component
inherits the metadata of the nearest styled component below it, if only a few wrappers lie between
them. An animated component shows nothing of what it wraps.

| here | in the program |
| --- | --- |
| `Component` | `HostComponent`, `ForwardRef`, `Memo`, `Animated` |
| `Component.displayName` | `display_name` |
| `Component.isFrozen`, `Component.inner?` | `is_frozen`, `inner` |
| `Component.searchDepth` | `MAX_UNWRAP_DEPTH` |
| `Component.metadataWithin`, `Component.metadata` | `resolve_metadata` |
| `StyledComponent.merged` | `create` |
| `StyledComponent.metadata?`, `StyledComponent.withAttrs` | `metadata`, `attrs` |
-/
namespace TemplateStyles

inductive Component where
  /-- A component of the platform. -/
  | host (name : String)
  | forwardRef (inner : Component)
  | memo (inner : Component)
  | animated (inner : Component)
  /-- A component with styles of its own. -/
  | styled (base : Component) (own : Metadata)

namespace Component

def displayName : Component → String
  | host name => name
  | forwardRef c => "ForwardRef(" ++ c.displayName ++ ")"
  | memo c => "Memo(" ++ c.displayName ++ ")"
  | animated c => "Animated." ++ c.displayName
  | styled base _ => "Styled(" ++ base.displayName ++ ")"

/-- A frozen component neither has metadata nor lets those below it be seen. -/
def isFrozen : Component → Bool
  | animated _ => true
  | _ => false

/-- The component that can be seen inside another one. -/
def inner? : Component → Option Component
  | host _ | animated _ => none
  | forwardRef c | memo c | styled c _ => some c

/-- How many components are looked at in search of metadata. -/
def searchDepth : Nat := 5

/-- The metadata that are found among the first `depth` components. -/
def metadataWithin : Component → Nat → Option Metadata
  | _, 0 => none
  | host _, _ + 1 | animated _, _ + 1 => none
  | forwardRef c, depth + 1 | memo c, depth + 1 => c.metadataWithin depth
  | styled base own, _ + 1 =>
    if base.isFrozen then none
    else some (((base.metadataWithin searchDepth).map (·.merge own)).getD own)

/-- The metadata that a styled component on top of this one inherits. -/
def metadata (c : Component) : Option Metadata := c.metadataWithin searchDepth

end Component

/-- A component with styles. -/
structure StyledComponent where
  base : Component
  /-- What it was given, without what it inherits. -/
  own : Metadata

namespace StyledComponent

def component (c : StyledComponent) : Component := .styled c.base c.own

def displayName (c : StyledComponent) : String := c.component.displayName

/-- Its metadata together with those it inherits. -/
def merged (c : StyledComponent) : Metadata :=
  (c.base.metadata.map (·.merge c.own)).getD c.own

/-- What other components inherit: nothing if the base is frozen. -/
def metadata? (c : StyledComponent) : Option Metadata :=
  if c.base.isFrozen then none else some c.merged

/-- The same styles with other attrs. -/
def withAttrs (c : StyledComponent) (attrs : Attrs) : StyledComponent :=
  { c with own := c.own.withAttrs (some attrs) }

end StyledComponent

end TemplateStyles
