import Siren.Fault
import Siren.Value

/-!
# Scopes

A scope is a stack of frames, one for each open block of a call or of the top
level.  A frame lists its bindings in the order of their declaration.  Names
are looked up and assigned in the innermost frame that declares them, and
declared in the innermost frame only.
-/

namespace Siren

/-- A name with its value. -/
abbrev Binding := Text × Value

/-- The bindings of one block in the order of their declaration. -/
abbrev Frame := List Binding

namespace Frame

/-- The names a frame declares, in order. -/
def names (frame : Frame) : List Text :=
  frame.map (·.1)

/-- The value of a name in a frame. -/
def get? (frame : Frame) (name : Text) : Option Value :=
  (frame.find? (·.1 = name)).map (·.2)

/-- Whether a frame declares a name. -/
def declares (frame : Frame) (name : Text) : Bool :=
  frame.any (·.1 = name)

/-- The frame with a new value for a name it declares. -/
def set (frame : Frame) (name : Text) (value : Value) : Frame :=
  frame.map fun binding => if binding.1 = name then (name, value) else binding

end Frame

/-- A stack of frames, the innermost first. -/
structure Scope where
  frames : List Frame

namespace Scope

/-- The scope with a single empty frame. -/
def fresh : Scope := ⟨[[]]⟩

/-- The scope with one more frame. -/
def push (scope : Scope) : Scope :=
  ⟨[] :: scope.frames⟩

/-- The scope without its innermost frame; without frames it stays as it is. -/
def pop (scope : Scope) : Scope :=
  ⟨scope.frames.tail⟩

/-- The number of frames. -/
def depth (scope : Scope) : Nat :=
  scope.frames.length

/-- Declares a name in the innermost frame. -/
def bind (scope : Scope) (name : Text) (value : Value) : Except Fault Scope :=
  match scope.frames with
  | [] => .error .noBlock
  | frame :: outer =>
    if Frame.declares frame name then
      .error (.runtime (.duplicateBinding name))
    else
      .ok ⟨(frame ++ [(name, value)]) :: outer⟩

/-- Declares names in the innermost frame, one after the other. -/
def bindAll (scope : Scope) : List Binding → Except Fault Scope
  | [] => .ok scope
  | (name, value) :: bindings => do
    let scope ← scope.bind name value
    scope.bindAll bindings

/-- The frames with a new value for a name in the first one that declares
it. -/
def assignIn (name : Text) (value : Value) : List Frame → Option (List Frame)
  | [] => none
  | frame :: outer =>
    if Frame.declares frame name then
      some (Frame.set frame name value :: outer)
    else
      (assignIn name value outer).map (frame :: ·)

/-- Gives a name a new value in the innermost frame that declares it. -/
def assign (scope : Scope) (name : Text) (value : Value) : Except RuntimeError Scope :=
  match assignIn name value scope.frames with
  | some frames => .ok ⟨frames⟩
  | none => .error (.unknownVariable name)

/-- The value of a name in the innermost frame that declares it. -/
def lookup (scope : Scope) (name : Text) : Except RuntimeError Value :=
  match scope.frames.findSome? (Frame.get? · name) with
  | some value => .ok value
  | none => .error (.unknownVariable name)

/-- The bindings of frames that the frames `inner` do not hide, the outermost
frame first. -/
def visibleIn (inner : List Frame) : List Frame → List Binding
  | [] => []
  | frame :: outer =>
    visibleIn (frame :: inner) outer ++
      frame.filter fun binding => !inner.any (Frame.declares · binding.1)

/-- The visible bindings, outermost frame first and in the order of their
declaration within a frame. -/
def bindings (scope : Scope) : List Binding :=
  visibleIn [] scope.frames

end Scope
end Siren
