import LocalizedText.Json.Source
import LocalizedText.Proofs.Keyed
import Mathlib.Data.String.Basic

/-!
# Ordered JSON values

The members of every object in a value stand in ascending order of their names, so that each name
occurs once. Whatever is read from a text is ordered, in whichever order and however often the names
are written.
-/

namespace LocalizedText

mutual

/-- The members of every object at or below a value stand in strictly ascending order. -/
def Json.IsOrdered : Json → Prop
  | .array items => Json.itemsAreOrdered items
  | .object members => Keyed.IsSorted members ∧ Json.membersAreOrdered members
  | _ => True

def Json.itemsAreOrdered : List Json → Prop
  | [] => True
  | item :: rest => item.IsOrdered ∧ Json.itemsAreOrdered rest

def Json.membersAreOrdered : List (String × Json) → Prop
  | [] => True
  | (_, value) :: rest => value.IsOrdered ∧ Json.membersAreOrdered rest

end

theorem Json.membersAreOrdered_iff {members : List (String × Json)} :
    membersAreOrdered members ↔ ∀ member ∈ members, member.2.IsOrdered := by
  induction members with
  | nil => simp [membersAreOrdered]
  | cons member rest inductionHypothesis => simp [membersAreOrdered, inductionHypothesis]

namespace JsonSource

mutual

theorem isOrdered_of_toJson? : ∀ (source : JsonSource) (depth : Nat) (json : Json),
    source.toJson? depth = some json → json.IsOrdered
  | .null | .bool _ => by
      rintro depth _ ⟨⟩
      simp [Json.IsOrdered]
  | .number _ | .string _ => by
      intro depth json denoted
      simp only [toJson?, Option.map_eq_some_iff] at denoted
      rcases denoted with ⟨_, _, rfl⟩
      simp [Json.IsOrdered]
  | .array items => by
      intro depth json denoted
      rw [toJson?] at denoted
      split at denoted
      · cases denoted
      · rcases Option.map_eq_some_iff.mp denoted with ⟨values, itemsDenoted, rfl⟩
        exact areOrdered_of_itemsToJson? items _ values itemsDenoted
  | .object members => by
      intro depth json denoted
      rw [toJson?] at denoted
      split at denoted
      · cases denoted
      · rcases Option.map_eq_some_iff.mp denoted with ⟨values, membersDenoted, rfl⟩
        refine ⟨Keyed.isSorted_ofList values, ?_⟩
        rw [Json.membersAreOrdered_iff]
        intro member isMember
        exact isOrdered_of_membersToJson? members _ values membersDenoted member
          (Keyed.mem_of_mem_ofList isMember)

theorem areOrdered_of_itemsToJson? : ∀ (items : List JsonSource) (depth : Nat)
    (values : List Json), itemsToJson? depth items = some values → Json.itemsAreOrdered values
  | [] => by
      rintro depth _ ⟨⟩
      simp [Json.itemsAreOrdered]
  | item :: rest => by
      intro depth values denoted
      simp only [itemsToJson?, Option.bind_eq_bind, Option.bind_eq_some_iff] at denoted
      rcases denoted with ⟨value, itemDenoted, others, restDenoted, same⟩
      cases same
      exact ⟨isOrdered_of_toJson? item depth value itemDenoted,
        areOrdered_of_itemsToJson? rest depth others restDenoted⟩

theorem isOrdered_of_membersToJson? : ∀ (members : List (Option String × JsonSource)) (depth : Nat)
    (values : List (String × Json)), membersToJson? depth members = some values →
      ∀ member ∈ values, member.2.IsOrdered
  | [] => by
      rintro depth _ ⟨⟩
      simp
  | (name, value) :: rest => by
      intro depth values denoted
      simp only [membersToJson?, Option.bind_eq_bind, Option.bind_eq_some_iff] at denoted
      rcases denoted with ⟨text, _, json, valueDenoted, others, restDenoted, same⟩
      cases same
      intro member isMember
      rcases List.mem_cons.mp isMember with rfl | later
      · exact isOrdered_of_toJson? value depth json valueDenoted
      · exact isOrdered_of_membersToJson? rest depth others restDenoted member later

end

end JsonSource

/-- The value that a text denotes is ordered. -/
theorem Json.isOrdered_of_read? {text : String} {json : Json} (denoted : read? text = some json) :
    json.IsOrdered := by
  rcases Option.bind_eq_some_iff.mp denoted with ⟨source, _, value⟩
  exact source.isOrdered_of_toJson? _ json value

end LocalizedText
