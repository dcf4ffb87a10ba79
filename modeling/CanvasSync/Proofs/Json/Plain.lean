import CanvasSync.Json.Writer
import CanvasSync.Proofs.Json.Fields

/-!
JSON values that are the same however they are kept.

* `valueInduction`: the one induction that values within values need;
* `Value.isPlain`: whole numbers of 64 bits only, and members in rising order of key;
* `Value.depth`: how deep arrays and objects nest;
* `sorted_eq_self`: a plain value has its members in order already;
* `text_array`, `text_object`: the text of items and members, each but the first with a comma before
  it.
-/

namespace CanvasSync.Json

/-- A property of values holds if it passes from the items of an array and from the values of an
object to the whole. -/
@[elab_as_elim]
theorem valueInduction {P : Value → Prop} (null : P .null) (bool : ∀ b, P (.bool b))
    (number : ∀ n, P (.number n)) (string : ∀ s, P (.string s))
    (array : ∀ items, (∀ v ∈ items, P v) → P (.array items))
    (object : ∀ members, (∀ m ∈ members, P m.2) → P (.object members)) (v : Value) : P v :=
  @Value.rec P (fun items => ∀ v ∈ items, P v) (fun members => ∀ m ∈ members, P m.2)
    (fun m => P m.2) null bool number string array object
    (fun _ h => absurd h List.not_mem_nil)
    (fun _ _ hv hvs => List.forall_mem_cons.mpr ⟨hv, hvs⟩)
    (fun _ h => absurd h List.not_mem_nil)
    (fun _ _ hm hms => List.forall_mem_cons.mpr ⟨hm, hms⟩)
    (fun _ _ hv => hv) v

/-! ### Plain values -/

namespace Value

mutual
/-- Whether a value has no doubles in it, whole numbers of 64 bits only, and members in strictly
rising order of key. -/
def isPlain : Value → Bool
  | .number (.whole i) => -0x8000000000000000 ≤ i && i < 0x10000000000000000
  | .number (.double _) => false
  | .array items => arePlain items
  | .object members => Fields.isRising members && membersArePlain members
  | _ => true

/-- `isPlain` of each item. -/
def arePlain : List Value → Bool
  | [] => true
  | v :: vs => isPlain v && arePlain vs

/-- `isPlain` of each value. -/
def membersArePlain : List (String × Value) → Bool
  | [] => true
  | (_, v) :: rest => isPlain v && membersArePlain rest
end

lemma arePlain_iff {items : List Value} : arePlain items ↔ ∀ v ∈ items, v.isPlain := by
  induction items with
  | nil => simp [arePlain]
  | cons v vs ih => simp [arePlain, ih]

lemma membersArePlain_iff {members : List (String × Value)} :
    membersArePlain members ↔ ∀ m ∈ members, m.2.isPlain := by
  induction members with
  | nil => simp [membersArePlain]
  | cons m ms ih => simp [membersArePlain, ih]

mutual
/-- How deep arrays and objects nest in a value. -/
def depth : Value → Nat
  | .array items => depthOfItems items + 1
  | .object members => depthOfMembers members + 1
  | _ => 0

/-- The greatest depth of some items. -/
def depthOfItems : List Value → Nat
  | [] => 0
  | v :: vs => max (depth v) (depthOfItems vs)

/-- The greatest depth of some values. -/
def depthOfMembers : List (String × Value) → Nat
  | [] => 0
  | (_, v) :: rest => max (depth v) (depthOfMembers rest)
end

lemma depth_lt_array {v : Value} {items : List Value} (h : v ∈ items) :
    v.depth < (array items).depth := by
  rw [depth, Nat.lt_succ_iff]
  induction items with
  | nil => simp at h
  | cons w ws ih =>
      rw [depthOfItems]
      rcases List.mem_cons.mp h with rfl | h
      · exact Nat.le_max_left _ _
      · exact (ih h).trans (Nat.le_max_right _ _)

lemma depth_lt_object {m : String × Value} {members : List (String × Value)} (h : m ∈ members) :
    m.2.depth < (object members).depth := by
  rw [depth, Nat.lt_succ_iff]
  induction members with
  | nil => simp at h
  | cons w ws ih =>
      rw [depthOfMembers]
      rcases List.mem_cons.mp h with rfl | h
      · exact Nat.le_max_left _ _
      · exact (ih h).trans (Nat.le_max_right _ _)

/-- A plain value has its members in order already. -/
lemma sorted_eq_self {v : Value} (h : v.isPlain) : v.sorted = v := by
  induction v using valueInduction with
  | null | bool | number | string => rfl
  | array items ih =>
      rw [isPlain, arePlain_iff] at h
      have hitems : sortedItems items = items := by
        induction items with
        | nil => rfl
        | cons v vs ihvs =>
            rw [List.forall_mem_cons] at h ih
            rw [sortedItems, ih.1 h.1, ihvs ih.2 h.2]
      rw [sorted, hitems]
  | object members ih =>
      rw [isPlain, Bool.and_eq_true, membersArePlain_iff] at h
      obtain ⟨hrising, h⟩ := h
      have hmembers : sortedMembers members = members := by
        clear hrising
        induction members with
        | nil => rfl
        | cons m ms ihms =>
            rw [List.forall_mem_cons] at h ih
            rw [sortedMembers, ih.1 h.1, ihms ih.2 h.2]
      rw [sorted, hmembers, Fields.ofList_eq_self hrising]

end Value

/-! ### The text of items and members -/

/-- The text of a member. -/
def memberText (m : String × Value) : Text := quote m.1.toList ++ ':' :: m.2.text

lemma itemsText_cons (v : Value) (vs : List Value) :
    itemsText (v :: vs) = v.text ++ vs.flatMap fun w => ',' :: w.text := by
  induction vs generalizing v with
  | nil => simp [itemsText]
  | cons w ws ih => rw [itemsText, ih, List.flatMap_cons, List.cons_append]

lemma membersText_cons (m : String × Value) (ms : List (String × Value)) :
    membersText (m :: ms) = memberText m ++ ms.flatMap fun n => ',' :: memberText n := by
  induction ms generalizing m with
  | nil => simp [membersText, memberText]
  | cons n ns ih =>
      rw [membersText, ih, List.flatMap_cons, List.cons_append]
      simp [memberText, List.append_assoc]

lemma text_array_cons (v : Value) (vs : List Value) :
    (Value.array (v :: vs)).text
      = '[' :: (v.text ++ (vs.flatMap fun w => ',' :: w.text) ++ [']']) := by
  rw [Value.text, itemsText_cons]

lemma text_object_cons (m : String × Value) (ms : List (String × Value)) :
    (Value.object (m :: ms)).text
      = '\x7b' :: (memberText m ++ (ms.flatMap fun n => ',' :: memberText n) ++ ['\x7d']) := by
  rw [Value.text, membersText_cons]

end CanvasSync.Json
