import DesiredState.Value

/-!
# Comparison of values

`Value.agrees` holds between a value and itself, so that what was written is found equal to what
was desired. Null agrees with nothing else.
-/

set_option autoImplicit false

namespace DesiredState

private theorem Double.agrees_self (double : Double) : double.agrees double = true := by
  simp [Double.agrees]

private theorem Number.agrees_self (number : Number) : number.agrees number = true := by
  cases number with
  | integer value => simp [Number.agrees]
  | double value => simp [Number.agrees, Number.toDouble?, Double.agrees_self]

namespace Value

/-- Induction over the values inside a value. -/
theorem induction {motive : Value → Prop} (null : motive .null) (bool : ∀ value, motive (.bool value))
    (number : ∀ value, motive (.number value)) (string : ∀ value, motive (.string value))
    (list : ∀ items, (∀ item ∈ items, motive item) → motive (.list items))
    (object : ∀ fields, (∀ field ∈ fields, motive field.2) → motive (.object fields)) (value : Value) :
    motive value := by
  refine @Value.rec motive (fun items => ∀ item ∈ items, motive item)
    (fun fields => ∀ field ∈ fields, motive field.2) (fun field => motive field.2)
    null bool number string list object ?_ ?_ ?_ ?_ ?_ value
  · exact fun _ member => nomatch member
  · exact fun _ _ first rest => List.forall_mem_cons.mpr ⟨first, rest⟩
  · exact fun _ member => nomatch member
  · exact fun _ _ first rest => List.forall_mem_cons.mpr ⟨first, rest⟩
  · exact fun _ _ inside => inside

mutual

private theorem agreesBy_self {same : Number → Number → Bool}
    (reflexive : ∀ number, same number number = true) :
    (value : Value) → agreesBy same value value = true
  | .null => rfl
  | .bool _ => by simp [agreesBy]
  | .number value => by simpa [agreesBy] using reflexive value
  | .string _ => by simp [agreesBy]
  | .list items => by simpa [agreesBy] using itemsAgreeBy_self reflexive items
  | .object fields => by simpa [agreesBy] using fieldsAgreeBy_self reflexive fields

theorem itemsAgreeBy_self {same : Number → Number → Bool}
    (reflexive : ∀ number, same number number = true) :
    (items : List Value) → itemsAgreeBy same items items = true
  | [] => by simp [itemsAgreeBy]
  | item :: rest => by
      simp [itemsAgreeBy, agreesBy_self reflexive item, itemsAgreeBy_self reflexive rest]

theorem fieldsAgreeBy_self {same : Number → Number → Bool}
    (reflexive : ∀ number, same number number = true) :
    (fields : List (String × Value)) → fieldsAgreeBy same fields fields = true
  | [] => by simp [fieldsAgreeBy]
  | (_, value) :: rest => by
      simp [fieldsAgreeBy, agreesBy_self reflexive value, fieldsAgreeBy_self reflexive rest]

end

theorem agrees_self (value : Value) : value.agrees value = true :=
  agreesBy_self Number.agrees_self value

theorem eq_null_of_isNull {value : Value} (isNull : value.isNull = true) : value = .null := by
  cases value <;> simp [Value.isNull] at isNull ⊢

end Value

end DesiredState
