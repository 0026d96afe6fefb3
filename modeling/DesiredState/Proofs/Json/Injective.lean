import DesiredState.Proofs.Json.Written
import DesiredState.Proofs.Number.Shortest

/-!
# Values told apart by their texts

No two values have the same written form. The written form of a value is read up to its end whatever
stands behind it, so that the parts of two equal texts end at the same places.
-/

set_option autoImplicit false

namespace DesiredState

open Json

namespace Value

/-- Where equal texts begin with written values, these values have the same draft and the same written
form, and the same stands behind them. -/
theorem split_prettyAt {first second : Value} {depth : Nat} {rest otherRest : List Char}
    (same : (first.prettyAt depth).toList ++ rest = (second.prettyAt depth).toList ++ otherRest)
    (ends : EndsNumber rest) (otherEnds : EndsNumber otherRest) :
    first.draft = second.draft ∧ first.prettyAt depth = second.prettyAt depth ∧ rest = otherRest := by
  have read := first.isRead depth (max first.reading second.reading) rest (Nat.le_max_left _ _) ends
  rw [same, second.isRead depth _ otherRest (Nat.le_max_right _ _) otherEnds] at read
  obtain ⟨sameDraft, rfl⟩ := Prod.ext_iff.mp (Option.some.inj read)
  exact ⟨sameDraft.symm, String.toList_inj.mp (List.append_cancel_right same), rfl⟩

private theorem draft_eq_of_prettyAt {first second : Value} {depth : Nat}
    (same : first.prettyAt depth = second.prettyAt depth) : first.draft = second.draft := by
  have ends : EndsNumber [] := fun _ first => nomatch first
  exact (split_prettyAt (congrArg (·.toList ++ []) same) ends ends).1

private theorem split_quote {first second : String} {rest otherRest : List Char}
    (same : (quote first).toList ++ rest = (quote second).toList ++ otherRest) :
    first = second ∧ rest = otherRest := by
  obtain ⟨body, isText, read⟩ := readString?_quote first rest
  obtain ⟨otherBody, isOtherText, otherRead⟩ := readString?_quote second otherRest
  rw [isText, isOtherText] at same
  have bodies : body ++ rest = otherBody ++ otherRest := List.tail_eq_of_cons_eq same
  rw [bodies, otherRead] at read
  obtain ⟨sameText, sameRest⟩ := Prod.ext_iff.mp (Option.some.inj read)
  exact ⟨(Option.some.inj sameText).symm, sameRest.symm⟩

/-- A value whose written form no other value has. -/
def IsTold (value : Value) : Prop :=
  ∀ (depth : Nat) (other : Value), value.prettyAt depth = other.prettyAt depth → value = other

private theorem IsTold.split {value other : Value} (told : value.IsTold) {depth : Nat}
    {rest otherRest : List Char}
    (same : (value.prettyAt depth).toList ++ rest = (other.prettyAt depth).toList ++ otherRest)
    (ends : EndsNumber rest) (otherEnds : EndsNumber otherRest) : value = other ∧ rest = otherRest := by
  obtain ⟨_, sameText, sameRest⟩ := split_prettyAt same ends otherEnds
  exact ⟨told depth other sameText, sameRest⟩

private theorem endsNumber_prettyItems (depth : Nat) (items : List Value) :
    EndsNumber (prettyItems depth items).toList := by
  have ends := endsNumber_items depth items []
  rwa [List.append_nil] at ends

private theorem endsNumber_prettyFields (depth : Nat) (fields : List (String × Value)) :
    EndsNumber (prettyFields depth fields).toList := by
  have ends := endsNumber_fields depth fields []
  rwa [List.append_nil] at ends

private theorem eq_of_prettyItems {items others : List Value} {depth : Nat}
    (each : ∀ item ∈ items, IsTold item)
    (same : (prettyItems depth items).toList = (prettyItems depth others).toList) : items = others := by
  induction items generalizing others with
  | nil =>
      cases others with
      | nil => rfl
      | cons other more =>
          rw [toList_prettyItems_nil, toList_prettyItems_cons] at same
          cases (List.cons_eq_cons.mp same).1
  | cons item rest ih =>
      cases others with
      | nil =>
          rw [toList_prettyItems_nil, toList_prettyItems_cons] at same
          cases (List.cons_eq_cons.mp same).1
      | cons other more =>
          rw [toList_prettyItems_cons, toList_prettyItems_cons] at same
          have behind := List.append_cancel_left (List.cons_inj_right _ |>.mp (List.tail_eq_of_cons_eq same))
          obtain ⟨sameItem, sameRest⟩ := (each item List.mem_cons_self).split behind
            (endsNumber_prettyItems depth rest) (endsNumber_prettyItems depth more)
          rw [sameItem, ih (fun other member => each other (List.mem_cons_of_mem item member)) sameRest]

private theorem eq_of_prettyFields {fields others : List (String × Value)} {depth : Nat}
    (each : ∀ field ∈ fields, IsTold field.2)
    (same : (prettyFields depth fields).toList = (prettyFields depth others).toList) : fields = others := by
  induction fields generalizing others with
  | nil =>
      cases others with
      | nil => rfl
      | cons other more =>
          rw [toList_prettyFields_nil, toList_prettyFields_cons] at same
          cases (List.cons_eq_cons.mp same).1
  | cons field rest ih =>
      obtain ⟨key, value⟩ := field
      cases others with
      | nil =>
          rw [toList_prettyFields_nil, toList_prettyFields_cons] at same
          cases (List.cons_eq_cons.mp same).1
      | cons other more =>
          obtain ⟨otherKey, otherValue⟩ := other
          rw [toList_prettyFields_cons, toList_prettyFields_cons] at same
          have keyed := List.append_cancel_left (List.cons_inj_right _ |>.mp (List.tail_eq_of_cons_eq same))
          obtain ⟨rfl, behind⟩ := split_quote keyed
          obtain ⟨rfl, sameRest⟩ := (each (key, value) List.mem_cons_self).split
            (List.cons_inj_right _ |>.mp (List.tail_eq_of_cons_eq behind))
            (endsNumber_prettyFields depth rest) (endsNumber_prettyFields depth more)
          rw [ih (fun other member => each other (List.mem_cons_of_mem _ member)) sameRest]

private theorem isTold (value : Value) : value.IsTold := by
  induction value using Value.induction with
  | null =>
      intro depth other same
      have sameDraft := draft_eq_of_prettyAt same
      cases other with
      | null => rfl
      | _ => cases sameDraft
  | bool value =>
      intro depth other same
      have sameDraft := draft_eq_of_prettyAt same
      cases other with
      | bool other =>
          cases sameDraft
          rfl
      | _ => cases sameDraft
  | number number =>
      intro depth other same
      have sameDraft := draft_eq_of_prettyAt same
      cases other with
      | number other =>
          rw [prettyAt, prettyAt] at same
          rw [Number.text_inj same]
      | _ => cases sameDraft
  | string text =>
      intro depth other same
      have sameDraft := draft_eq_of_prettyAt same
      cases other with
      | string other =>
          cases sameDraft
          rfl
      | _ => cases sameDraft
  | list items each =>
      intro depth other same
      have sameDraft := draft_eq_of_prettyAt same
      cases other with
      | list others =>
          cases items <;> cases others
          case nil.nil => rfl
          case nil.cons | cons.nil => cases sameDraft
          case cons.cons item rest other more =>
            have texts := congrArg String.toList same
            rw [toList_prettyAt_list, toList_prettyAt_list] at texts
            have sameItems : (prettyItems depth (item :: rest)).toList =
                (prettyItems depth (other :: more)).toList := by
              rw [toList_prettyItems_cons, toList_prettyItems_cons, List.tail_eq_of_cons_eq texts]
            rw [eq_of_prettyItems each sameItems]
      | _ => cases sameDraft
  | object fields each =>
      intro depth other same
      have sameDraft := draft_eq_of_prettyAt same
      cases other with
      | object others =>
          cases fields <;> cases others
          case nil.nil => rfl
          case nil.cons | cons.nil => cases sameDraft
          case cons.cons field rest other more =>
            have texts := congrArg String.toList same
            rw [toList_prettyAt_object, toList_prettyAt_object] at texts
            have sameFields : (prettyFields depth (field :: rest)).toList =
                (prettyFields depth (other :: more)).toList := by
              rw [toList_prettyFields_cons, toList_prettyFields_cons, List.tail_eq_of_cons_eq texts]
            rw [eq_of_prettyFields each sameFields]
      | _ => cases sameDraft

/-- No two values have the same text. -/
theorem pretty_inj {first second : Value} (same : first.pretty = second.pretty) : first = second :=
  first.isTold 0 second same

end Value

end DesiredState
