/-!
# Spelled names

The values of some settings are chosen by name. A name is matched as a whole, either exactly or, on
request, up to the case of the letters a to z; letters outside that range have one case only.
-/

namespace TapeMachine

/-- A text that spells none of the names on offer. -/
structure UnknownName where
  text : String
  deriving DecidableEq

def UnknownName.message (e : UnknownName) : String := "invalid variant: " ++ e.text

namespace Spelling

/-- The text in lower case, as far as the letters A to Z go. -/
def lower (text : String) : String := text.map Char.toLower

/-- Whether a text spells a name. -/
def agrees (ignoreCase : Bool) (name text : String) : Bool :=
  if ignoreCase then lower name == lower text else name == text

/-- The first value whose name is spelled by the text. -/
def choose {α : Type} (name : α → String) (values : List α) (ignoreCase : Bool) (text : String) :
    Except UnknownName α :=
  match values.find? fun value => agrees ignoreCase (name value) text with
  | some value => .ok value
  | none => .error ⟨text⟩

/-- Where names tell the values apart, the exact spelling of a name is the name itself. -/
theorem choose_eq_ok_iff {α : Type} {name : α → String} {values : List α} {text : String}
    {value : α} (hall : ∀ value, value ∈ values)
    (htold : ∀ first second, name first = name second → first = second) :
    choose name values false text = .ok value ↔ name value = text := by
  unfold choose
  cases hfind : values.find? fun value => agrees false (name value) text with
  | none =>
    have hnone := List.find?_eq_none.mp hfind value (hall value)
    simp only [agrees, Bool.false_eq_true, if_false, beq_iff_eq] at hnone
    simp [hnone]
  | some found =>
    have hfound : name found = text := by simpa [agrees] using List.find?_some hfind
    constructor
    · intro h
      obtain rfl := Except.ok.inj h
      exact hfound
    · intro h
      rw [htold found value (hfound.trans h.symm)]

end Spelling

end TapeMachine
