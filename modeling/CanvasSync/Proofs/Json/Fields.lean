import CanvasSync.Json.Value
import Mathlib.Data.List.Induction
import Mathlib.Data.List.Nodup
import Mathlib.Data.String.Basic
import Mathlib.Tactic.Common

/-!
Members of objects.

* `get?_insert`, `get?_erase`, `get?_ofList`: what is found after a change;
* `isRising`: members in strictly rising order of key, which `insert`, `erase` and `ofList` keep;
* `ext_get?`: rising members are the same if the same is found in them;
* `ofList_eq_self`, `insert_erase`: rising members are kept as they are, and a member that is taken
  out and put in again stands where it stood.
-/

namespace CanvasSync.Json.Fields

variable {fields fields' : Fields} {k l : String} {v : Value}

/-! ### What is found -/

lemma mem_of_get? (h : get? k fields = some v) : (k, v) ∈ fields := by
  induction fields with
  | nil => simp [get?] at h
  | cons m ms ih =>
      rw [get?] at h
      split at h
      · next heq =>
          obtain rfl := Option.some.inj h
          rw [← heq]
          exact List.mem_cons_self ..
      · exact List.mem_cons_of_mem _ (ih h)

lemma get?_eq_none_iff : get? k fields = none ↔ ∀ m ∈ fields, m.1 ≠ k := by
  induction fields with
  | nil => simp [get?]
  | cons m ms ih =>
      rw [get?, List.forall_mem_cons, ← ih]
      split <;> simp_all

/-- What is found under a key is its only member. -/
lemma get?_of_mem (hkeys : (fields.map Prod.fst).Nodup) (h : (k, v) ∈ fields) :
    get? k fields = some v := by
  induction fields with
  | nil => simp at h
  | cons m ms ih =>
      rw [List.map_cons, List.nodup_cons] at hkeys
      rcases List.mem_cons.mp h with rfl | h
      · simp [get?]
      · have hne : m.1 ≠ k := by
          rintro rfl
          exact hkeys.1 (List.mem_map.mpr ⟨_, h, rfl⟩)
        rw [get?, if_neg hne, ih hkeys.2 h]

/-- Members of distinct keys may stand in any order. -/
lemma get?_eq_some_iff (hkeys : (fields.map Prod.fst).Nodup) :
    get? k fields = some v ↔ (k, v) ∈ fields :=
  ⟨mem_of_get?, get?_of_mem hkeys⟩

lemma get?_reverse (hkeys : (fields.map Prod.fst).Nodup) : get? k fields.reverse = get? k fields := by
  have hreverse : (fields.reverse.map Prod.fst).Nodup := by
    rwa [List.map_reverse, List.nodup_reverse]
  ext v
  rw [get?_eq_some_iff hreverse, get?_eq_some_iff hkeys, List.mem_reverse]

lemma get?_append (members members' : List (String × Value)) :
    get? k (members ++ members') = (get? k members).or (get? k members') := by
  induction members with
  | nil => rfl
  | cons m ms ih =>
      rw [List.cons_append, get?, get?, ih]
      split <;> rfl

lemma get?_insert : get? l (insert k v fields) = if k = l then some v else get? l fields := by
  induction fields with
  | nil => rfl
  | cons m ms ih =>
      rw [insert]
      by_cases hk : m.1 = k
      · rw [if_pos hk, get?, get?, hk]
        split <;> rfl
      · rw [if_neg hk]
        split
        · rfl
        · rw [get?, get?, ih]
          split <;> split <;> simp_all

lemma get?_erase : get? l (erase k fields) = if k = l then none else get? l fields := by
  induction fields with
  | nil => simp [erase, get?]
  | cons m ms ih =>
      rw [erase] at ih ⊢
      by_cases hk : m.1 = k
      · rw [List.filter_cons_of_neg (by simpa using hk), ih, get?, hk]
        split <;> rfl
      · rw [List.filter_cons_of_pos (by simpa using hk), get?, get?, ih]
        split <;> split <;> simp_all

/-- A member is the first one of the rest, but for the order. -/
lemma perm_cons_erase (hkeys : (fields.map Prod.fst).Nodup) (h : get? k fields = some v) :
    fields.Perm ((k, v) :: erase k fields) := by
  obtain ⟨front, back, rfl⟩ := List.append_of_mem (mem_of_get? h)
  rw [List.map_append, List.map_cons] at hkeys
  have hkey := List.nodup_cons.mp (List.nodup_middle.mp hkeys)
  rw [← List.map_append] at hkey
  have hrest : erase k (front ++ (k, v) :: back) = front ++ back := by
    have hne : ∀ m ∈ front ++ back, m.1 ≠ k := fun m hm hk =>
      hkey.1 (List.mem_map.mpr ⟨m, hm, hk⟩)
    rw [erase, List.filter_append, List.filter_cons_of_neg (by simp), ← List.filter_append]
    exact List.filter_eq_self.mpr fun m hm => decide_eq_true (hne m hm)
  rw [hrest]
  exact List.perm_middle

lemma ofList_append_singleton (members : List (String × Value)) (k : String) (v : Value) :
    ofList (members ++ [(k, v)]) = insert k v (ofList members) := by
  simp [ofList, List.foldl_append]

/-- Of several members of one key the last one is found. -/
lemma get?_ofList (members : List (String × Value)) :
    get? k (ofList members) = get? k members.reverse := by
  induction members using List.reverseRecOn with
  | nil => rfl
  | append_singleton ms m ih =>
      rw [ofList_append_singleton, get?_insert, ih, List.reverse_append, List.reverse_singleton,
        List.singleton_append, get?]

/-! ### Members in order -/

/-- Whether members stand in strictly rising order of key. -/
def isRising (fields : Fields) : Bool := (fields.map Prod.fst).Pairwise (· < ·)

lemma isRising_cons {m : String × Value} {ms : Fields} :
    isRising (m :: ms) ↔ (∀ n ∈ ms, m.1 < n.1) ∧ isRising ms := by
  simp [isRising]

lemma nodup_keys (h : fields.isRising) : (fields.map Prod.fst).Nodup := by
  rw [isRising, decide_eq_true_eq] at h
  exact h.imp fun hlt => hlt.ne

lemma mem_insert {m : String × Value} (h : m ∈ insert k v fields) : m = (k, v) ∨ m ∈ fields := by
  induction fields with
  | nil => exact .inl (List.mem_singleton.mp h)
  | cons n ns ih =>
      rw [insert] at h
      split at h
      · rcases List.mem_cons.mp h with rfl | h
        · exact .inl rfl
        · exact .inr (List.mem_cons_of_mem _ h)
      · split at h
        · exact List.mem_cons.mp h
        · rcases List.mem_cons.mp h with rfl | h
          · exact .inr (List.mem_cons_self ..)
          · exact (ih h).imp_right (List.mem_cons_of_mem _)

/-- A new member stands between those before it and those behind it. -/
lemma exists_insert_eq (hkey : k ∉ fields.map Prod.fst) (v : Value) :
    ∃ xs ys, fields = xs ++ ys ∧ insert k v fields = xs ++ (k, v) :: ys := by
  induction fields with
  | nil => exact ⟨[], [], rfl, rfl⟩
  | cons m ms ih =>
      rw [List.map_cons, List.mem_cons, not_or] at hkey
      rw [insert, if_neg (Ne.symm hkey.1)]
      split
      · exact ⟨[], m :: ms, rfl, rfl⟩
      · obtain ⟨xs, ys, hfields, hinsert⟩ := ih hkey.2
        exact ⟨m :: xs, ys, by rw [hfields, List.cons_append], by rw [hinsert, List.cons_append]⟩

lemma isRising_insert (h : fields.isRising) : (insert k v fields).isRising := by
  induction fields with
  | nil => rfl
  | cons m ms ih =>
      obtain ⟨hm, hms⟩ := isRising_cons.mp h
      rw [insert]
      split
      · next hk => exact isRising_cons.mpr ⟨hk ▸ hm, hms⟩
      · next hk =>
          split
          · next hlt =>
              refine isRising_cons.mpr ⟨List.forall_mem_cons.mpr ⟨hlt, fun n hn => ?_⟩, h⟩
              exact String.lt_trans hlt (hm n hn)
          · next hlt =>
              refine isRising_cons.mpr ⟨fun n hn => ?_, ih hms⟩
              rcases mem_insert hn with rfl | hn
              · exact lt_of_le_of_ne (not_lt.mp hlt) hk
              · exact hm n hn

lemma isRising_erase (h : fields.isRising) : (erase k fields).isRising := by
  rw [isRising, decide_eq_true_eq, List.pairwise_map] at h ⊢
  exact h.filter _

lemma isRising_ofList (members : List (String × Value)) : (ofList members).isRising := by
  induction members using List.reverseRecOn with
  | nil => rfl
  | append_singleton ms m ih =>
      rw [ofList_append_singleton]
      exact isRising_insert ih

/-- What is found does not come before the first member. -/
lemma le_of_get?_cons {m : String × Value} (h : isRising (m :: fields))
    (hget : get? k (m :: fields) = some v) : m.1 ≤ k := by
  rcases List.mem_cons.mp (mem_of_get? hget) with hm | hm
  · exact le_of_eq (congrArg Prod.fst hm).symm
  · exact le_of_lt ((isRising_cons.mp h).1 _ hm)

/-- Rising members are the same if the same is found in them. -/
lemma ext_get? (h : fields.isRising) (h' : fields'.isRising)
    (heq : ∀ k, get? k fields = get? k fields') : fields = fields' := by
  induction fields generalizing fields' with
  | nil =>
      cases fields' with
      | nil => rfl
      | cons n ns => simpa [get?] using heq n.1
  | cons m ms ih =>
      cases fields' with
      | nil => simpa [get?] using heq m.1
      | cons n ns =>
          obtain ⟨hm, hms⟩ := isRising_cons.mp h
          obtain ⟨hn, hns⟩ := isRising_cons.mp h'
          have hkey : m.1 = n.1 := by
            have hleft : get? m.1 (n :: ns) = some m.2 := (heq m.1).symm.trans (by simp [get?])
            have hright : get? n.1 (m :: ms) = some n.2 := (heq n.1).trans (by simp [get?])
            exact le_antisymm (le_of_get?_cons h hright) (le_of_get?_cons h' hleft)
          have hvalue : m.2 = n.2 := by simpa [get?, hkey] using heq n.1
          rw [Prod.ext hkey hvalue, ih hms hns]
          intro k
          by_cases hk : m.1 = k
          · have hleft : get? k ms = none :=
              get?_eq_none_iff.mpr fun x hx => hk ▸ (hm x hx).ne'
            have hright : get? k ns = none :=
              get?_eq_none_iff.mpr fun x hx => hk ▸ hkey ▸ (hn x hx).ne'
            rw [hleft, hright]
          · simpa [get?, hk, hkey ▸ hk] using heq k

/-- Members in rising order are kept as they are. -/
lemma ofList_eq_self (h : fields.isRising) : ofList fields = fields :=
  ext_get? (isRising_ofList fields) h fun k => by
    rw [get?_ofList, get?_reverse (nodup_keys h)]

/-- A member that is taken out and put in again stands where it stood. -/
lemma insert_erase (h : fields.isRising) (hget : get? k fields = some v) :
    insert k v (erase k fields) = fields :=
  ext_get? (isRising_insert (isRising_erase h)) h fun l => by
    rw [get?_insert, get?_erase]
    split
    · next hk => rw [← hk, hget]
    · rfl

end CanvasSync.Json.Fields
