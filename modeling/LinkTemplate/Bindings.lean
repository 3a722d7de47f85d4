import LinkTemplate.Value
/-! # Bindings of names to values -/

namespace LinkTemplate

abbrev Bindings := Table Value

/-- The value under a name, if it has one that is defined. -/
def Bindings.defined? (bindings : Bindings) (name : Text) : Option Value :=
  (bindings.get? name).filter Value.isDefined

theorem Bindings.defined?_of_get? {bindings : Bindings} {name : Text} {value : Value}
    (h : bindings.get? name = some value) (hvalue : value.isDefined) :
    defined? bindings name = some value := by
  simp [defined?, h, hvalue]

theorem Bindings.isDefined_of_defined? {bindings : Bindings} {name : Text} {value : Value}
    (h : defined? bindings name = some value) : value.isDefined := by
  simp only [defined?, Option.filter_eq_some_iff] at h
  exact h.2

end LinkTemplate
