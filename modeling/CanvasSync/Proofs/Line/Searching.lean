import CanvasSync.Line.Edit
import CanvasSync.Proofs.Line.Scanning

/-!
The search for an attribute, step by step.

The search has no bound of its own: it goes on as long as its steps have no result. What it is at
after some steps is read off `afterSteps`, and whether it ends is decided by that.

* `searchStep_eq_inr`, `searchStep_eq_inl_some`: a step goes on behind the name, or ends before it;
* `findAttribute?_eq_some_iff`: the search has a result exactly if one of its steps has;
* `Tag.Reads`: an offset that lies in the tag, between two characters;
* `Tag.IsSearched`: what the steps of the search do in a tag;
* `findAttribute?_isSome_iff`: the search ends exactly if there is a name to search for;
* `search_ends_iff`: whether the search and the edits that rest on it end, on any line.
-/

namespace CanvasSync.Line

namespace Tag

variable {name head line : Text} {t next : Tag} {n : Nat}

/-! ### What stands behind a value -/

lemma exists_of_afterChar? {q : Char} {w rest : Text} (h : afterChar? q w = some rest) :
    ∃ value, w = value ++ rest := by
  induction w with
  | nil => cases h
  | cons c w ih =>
      rw [afterChar?] at h
      split at h
      · exact ⟨[c], by rw [Option.some.inj h, List.singleton_append]⟩
      · obtain ⟨value, rfl⟩ := ih h
        exact ⟨c :: value, rfl⟩

lemma exists_of_afterBraces? {depth : Nat} {w rest : Text} (h : afterBraces? depth w = some rest) :
    ∃ value, w = value ++ rest := by
  induction w generalizing depth with
  | nil => cases h
  | cons c w ih =>
      have hcons {depth : Nat} (h : afterBraces? depth w = some rest) :
          ∃ value, c :: w = value ++ rest := by
        obtain ⟨value, rfl⟩ := ih h
        exact ⟨c :: value, rfl⟩
      rw [afterBraces?] at h
      split_ifs at h
      · exact hcons h
      · exact ⟨[c], by rw [Option.some.inj h, List.singleton_append]⟩
      · exact hcons h
      · exact hcons h

/-- What follows a value is the end of the text. -/
lemma exists_of_afterValue? {w rest : Text} (h : afterValue? w = some rest) :
    ∃ value, w = value ++ rest := by
  cases w with
  | nil => cases h
  | cons c w =>
      rw [afterValue?] at h
      split_ifs at h
      · obtain ⟨value, rfl⟩ := exists_of_afterChar? h
        exact ⟨c :: value, rfl⟩
      · exact exists_of_afterBraces? h

/-- Where an attribute is found, it begins at the occurrence of its name. -/
lemma exists_of_judge {tail before rest : Text}
    (h : judge head tail = .here (some (before, rest))) :
    before = head ∧ ∃ value, tail = value ++ rest := by
  unfold judge at h
  split at h
  · split at h
    · obtain ⟨rest', hvalue, heq⟩ := Option.map_eq_some_iff.mp (Found.here.inj h)
      obtain ⟨rfl, rfl⟩ := Prod.mk.inj heq
      obtain ⟨value, rfl⟩ := exists_of_afterValue? hvalue
      exact ⟨rfl, '=' :: value, rfl⟩
    · split at h
      · obtain ⟨rfl, rfl⟩ := Prod.mk.inj (Option.some.inj (Found.here.inj h))
        exact ⟨rfl, [], rfl⟩
      · cases h
    · cases h
  · cases h

/-! ### One step -/

/-- A step that has no result goes on behind the next occurrence of the name. -/
lemma searchStep_eq_inr (h : t.searchStep name = .inr next) :
    ∃ skipped rest, Text.cut? name t.body = some (skipped, rest)
      ∧ next = { t with before := t.before ++ skipped ++ name, body := rest } := by
  rw [searchStep] at h
  split at h
  · cases h
  · next skipped rest hcut =>
      simp only at h
      split at h
      · cases h
      · exact ⟨skipped, rest, hcut, (Sum.inr.inj h).symm⟩

/-- A step that finds the attribute finds it at the next occurrence of the name. -/
lemma searchStep_eq_inl_some {before rest : Text}
    (h : t.searchStep name = .inl (some (before, rest))) :
    ∃ skipped tail value, Text.cut? name t.body = some (skipped, tail)
      ∧ before = t.before ++ skipped ∧ tail ++ t.after = value ++ rest := by
  rw [searchStep] at h
  split at h
  · cases h
  · next skipped tail hcut =>
      simp only at h
      split at h
      · next around hjudge =>
          rw [Sum.inl.inj h] at hjudge
          obtain ⟨rfl, value, hvalue⟩ := exists_of_judge hjudge
          exact ⟨skipped, tail, value, hcut, rfl, hvalue⟩
      · cases h

/-! ### Several steps -/

/-- The search for an attribute after some steps: its result, or what of the tag is left. -/
def afterSteps (name : Text) : Nat → Tag → Sum (Option (Text × Text)) Tag
  | 0, t => .inr t
  | n + 1, t =>
    match t.searchStep name with
    | .inl result => .inl result
    | .inr next => afterSteps name n next

/-- What holds of a tag and is kept by each step holds of all that is left of it. -/
lemma afterSteps_induction {P : Tag → Prop} (hstart : P t)
    (hstep : ∀ {u v}, P u → u.searchStep name = .inr v → P v)
    (h : t.afterSteps name n = .inr next) : P next := by
  induction n generalizing t with
  | zero => exact Sum.inr.inj h ▸ hstart
  | succ n ih =>
      rw [afterSteps] at h
      split at h
      · cases h
      · next hnext => exact ih (hstep hstart hnext) h

/-- Each step without a result takes the name away from what is left of the tag. -/
lemma length_afterSteps (h : t.afterSteps name n = .inr next) :
    n * name.length + next.body.length ≤ t.body.length := by
  induction n generalizing t with
  | zero =>
      obtain rfl := Sum.inr.inj h
      omega
  | succ n ih =>
      rw [afterSteps] at h
      split at h
      · cases h
      · next u hnext =>
          obtain ⟨skipped, rest, hcut, rfl⟩ := searchStep_eq_inr hnext
          have hlength := congrArg List.length (Text.eq_of_cut? hcut)
          have hrest := ih h
          simp only [List.length_append] at hlength hrest
          rw [Nat.add_mul, Nat.one_mul]
          omega

/-- The search ends within as many steps as there are characters, and one. -/
lemma exists_afterSteps_eq_inl (hname : name ≠ []) (t : Tag) :
    ∃ result, t.afterSteps name (t.body.length + 1) = .inl result := by
  cases h : t.afterSteps name (t.body.length + 1) with
  | inl result => exact ⟨result, rfl⟩
  | inr next =>
      have hlength := length_afterSteps h
      have hpos := Nat.le_mul_of_pos_right (t.body.length + 1) (List.length_pos_iff.mpr hname)
      omega

/-- **The search has a result exactly if one of its steps has.** -/
theorem findAttribute?_eq_some_iff {result : Option (Text × Text)} :
    t.findAttribute? name = some result ↔ ∃ n, t.afterSteps name n = .inl result := by
  constructor
  · refine findAttribute?.partial_correctness name
      (fun t result => ∃ n, t.afterSteps name n = .inl result)
      (fun goOn ih t result h => ?_) t result
    cases hstep : t.searchStep name with
    | inl found =>
        rw [hstep] at h
        obtain rfl := Option.some.inj h
        exact ⟨1, by rw [afterSteps, hstep]⟩
    | inr next =>
        rw [hstep] at h
        obtain ⟨n, hn⟩ := ih _ _ h
        exact ⟨n + 1, by rw [afterSteps, hstep]; exact hn⟩
  · rintro ⟨n, h⟩
    induction n generalizing t with
    | zero => cases h
    | succ n ih =>
        rw [afterSteps] at h
        rw [findAttribute?]
        cases hstep : t.searchStep name with
        | inl found =>
            rw [hstep] at h
            exact congrArg some (Sum.inl.inj h)
        | inr next =>
            rw [hstep] at h
            exact ih h

/-- A result is that of a step from what is left of the tag after some steps. -/
lemma exists_of_afterSteps_eq_inl {result : Option (Text × Text)}
    (h : t.afterSteps name n = .inl result) :
    ∃ m u, t.afterSteps name m = .inr u ∧ u.searchStep name = .inl result := by
  induction n generalizing t with
  | zero => cases h
  | succ n ih =>
      rw [afterSteps] at h
      split at h
      · next hstep => exact ⟨0, t, rfl, by rw [hstep, Sum.inl.inj h]⟩
      · next hnext =>
          obtain ⟨m, u, hm, hstep⟩ := ih h
          exact ⟨m + 1, u, by rw [afterSteps, hnext]; exact hm, hstep⟩

/-- A search whose step leaves it where it is does not end. -/
lemma findAttribute?_eq_none_of_stays (h : t.searchStep name = .inr t) :
    (∀ n, t.afterSteps name n = .inr t) ∧ t.findAttribute? name = none := by
  have hstays (n : Nat) : t.afterSteps name n = .inr t := by
    induction n with
    | zero => rfl
    | succ n ih => rw [afterSteps, h]; exact ih
  refine ⟨hstays, Option.eq_none_iff_forall_ne_some.mpr fun result hresult => ?_⟩
  obtain ⟨n, hn⟩ := findAttribute?_eq_some_iff.mp hresult
  rw [hstays n] at hn
  cases hn

/-! ### The search in a tag -/

/-- Whether an offset of a line lies in a tag of it, between two characters: at the less-than sign,
at the greater-than sign or between them. -/
structure Reads (t : Tag) (line : Text) (offset : Nat) : Prop where
  start : Text.size t.before ≤ offset
  stop : offset ≤ Text.size t.head
  boundary : Text.IsBoundary offset line

/-- What the steps of the search for an attribute do in a tag of a line. All offsets that they read
at lie in the tag, between two characters, and each step without a result moves on by the name at
least, so that there are only so many of them. -/
structure IsSearched (t : Tag) (line name : Text) : Prop where
  reads : ∀ {n next}, t.afterSteps name n = .inr next →
    t.Reads line (Text.size next.before)
      ∧ ∀ skipped rest, Text.cut? name next.body = some (skipped, rest) →
        t.Reads line (Text.size (next.before ++ skipped))
          ∧ t.Reads line (Text.size (next.before ++ skipped ++ name))
  advances : ∀ {n next}, t.afterSteps name n = .inr next →
    ∀ next', next.searchStep name = .inr next' →
      Text.size next.before + Text.size name ≤ Text.size next'.before
  steps : ∀ {n next}, t.afterSteps name n = .inr next → n * name.length ≤ t.body.length
  ends : name ≠ [] → ∃ result, t.afterSteps name (t.body.length + 1) = .inl result
  found : ∀ {before rest}, t.findAttribute? name = some (some (before, rest)) →
    t.Reads line (Text.size before) ∧ ∃ value, line = before ++ (name ++ (value ++ rest))

/-- A text that stands at the beginning of the tag is read at its end. -/
lemma reads_of_passed {passed rest : Text} (hline : line = t.before ++ (t.body ++ t.after))
    (hbody : t.body = passed ++ rest) : t.Reads line (Text.size (t.before ++ passed)) where
  start := by
    rw [Text.size_append]
    omega
  stop := by
    rw [Tag.head, hbody]
    simp only [Text.size_append]
    omega
  boundary := by
    have hwhole : line = t.before ++ passed ++ (rest ++ t.after) := by
      rw [hline, hbody]
      simp
    rw [Text.IsBoundary, hwhole, Text.upTo_size_append]

/-- What is left of a tag after some steps is its end, with all that is before it on the line. -/
lemma exists_of_afterSteps (h : t.afterSteps name n = .inr next) :
    ∃ passed, next = { t with before := t.before ++ passed, body := next.body }
      ∧ t.body = passed ++ next.body := by
  refine afterSteps_induction (P := fun next => ∃ passed,
    next = { t with before := t.before ++ passed, body := next.body }
      ∧ t.body = passed ++ next.body) ⟨[], by simp, rfl⟩ ?_ h
  rintro u v ⟨passed, hu, hbody⟩ hstep
  obtain ⟨skipped, rest, hcut, rfl⟩ := searchStep_eq_inr hstep
  refine ⟨passed ++ skipped ++ name, ?_, ?_⟩
  · rw [hu]
    simp
  · rw [hbody, Text.eq_of_cut? hcut]
    simp

/-- **The search stays within the tag and moves on**, and ends if there is a name. -/
theorem isSearched (ht : split? line = some t) (name : Text) : t.IsSearched line name where
  reads {n next} h := by
    obtain ⟨hline, -⟩ := split?_eq_some_iff.mp ht
    obtain ⟨passed, hnext, hbody⟩ := exists_of_afterSteps h
    rw [hnext]
    refine ⟨reads_of_passed hline hbody, fun skipped rest hcut => ?_⟩
    rw [Text.eq_of_cut? hcut] at hbody
    have hat := reads_of_passed hline
      (show t.body = (passed ++ skipped) ++ (name ++ rest) by rw [hbody]; simp)
    have hbehind := reads_of_passed hline
      (show t.body = (passed ++ skipped ++ name) ++ rest by rw [hbody]; simp)
    simp only [← List.append_assoc] at hat hbehind
    exact ⟨hat, hbehind⟩
  advances {n next} _ next' hstep := by
    obtain ⟨skipped, rest, -, rfl⟩ := searchStep_eq_inr hstep
    simp only [Text.size_append]
    omega
  steps h := Nat.le_trans (Nat.le_add_right _ _) (length_afterSteps h)
  ends hname := exists_afterSteps_eq_inl hname t
  found {before rest} h := by
    obtain ⟨hline, -⟩ := split?_eq_some_iff.mp ht
    obtain ⟨n, hn⟩ := findAttribute?_eq_some_iff.mp h
    obtain ⟨m, next, hm, hstep⟩ := exists_of_afterSteps_eq_inl hn
    obtain ⟨passed, hnext, hbody⟩ := exists_of_afterSteps hm
    obtain ⟨skipped, tail, value, hcut, rfl, hvalue⟩ := searchStep_eq_inl_some hstep
    rw [Text.eq_of_cut? hcut, ← List.append_assoc] at hbody
    have hat := reads_of_passed hline hbody
    rw [← List.append_assoc] at hat
    rw [hnext] at hvalue ⊢
    refine ⟨hat, value, ?_⟩
    rw [hline, hbody, ← hvalue]
    simp

/-- A tag begins with a less-than sign, so that nothing at all does not stand there as an attribute
would. -/
lemma searchStep_nil (ht : split? line = some t) : t.searchStep [] = .inr t := by
  obtain ⟨-, -, ⟨c, u, hbody, -⟩, -⟩ := split?_eq_some_iff.mp ht
  have hcut : Text.cut? [] t.body = some ([], t.body) := by
    rw [hbody, Text.cut?, Text.strip?]
  have hjudge : judge t.before (t.body ++ t.after) = .further :=
    judge_eq_further (.inr (by rw [hbody]; rfl))
  rw [searchStep, hcut]
  simp [hjudge]

/-- **The search for an attribute ends exactly if there is a name to search for.** -/
theorem findAttribute?_isSome_iff (ht : split? line = some t) (name : Text) :
    (t.findAttribute? name).isSome ↔ name ≠ [] := by
  constructor
  · rintro hsome rfl
    rw [(findAttribute?_eq_none_of_stays (searchStep_nil ht)).2] at hsome
    cases hsome
  · intro hname
    obtain ⟨result, hresult⟩ := exists_afterSteps_eq_inl hname t
    rw [findAttribute?_eq_some_iff.mpr ⟨_, hresult⟩]
    rfl

end Tag

/-! ### Edits -/

open CanvasSync.Json (Fields Value)
open Tag (split?)

variable {line out : Text}

/-- A prop can be set unless there is a tag but no name. -/
lemma setProp?_isSome_iff (line : Text) (name : String) (value : Value) :
    (setProp? line name value).isSome ↔ (name = "" → split? line = none) := by
  rw [setProp?]
  cases ht : split? line with
  | none => simp
  | some t =>
      simp only [Option.isSome_map, Tag.findAttribute?_isSome_iff ht, ne_eq,
        String.toList_eq_nil_iff]
      simp

/-- The line with all edits of an update made; nothing if one of them does not come to an end. -/
def Updates.made? (u : Updates) (line : Text) : Option Text :=
  u.props.foldlM (fun line (name, value) => setProp? line name value)
    ({ u with props := [] }.apply line)

/-- Props can be set one after the other unless one without a name comes to a line with a tag. -/
lemma foldlM_setProp?_isSome_iff (props : Fields) (line : Text) :
    (props.foldlM (fun line (name, value) => setProp? line name value) line).isSome
      ↔ ∀ as v bs, props = as ++ ("", v) :: bs →
        split? (as.foldl (fun line (name, value) => setProp line name value) line) = none := by
  induction props generalizing line with
  | nil => simp
  | cons p props ih =>
      obtain ⟨name, value⟩ := p
      have hfirst := setProp?_isSome_iff line name value
      rw [List.foldlM_cons, Option.bind_eq_bind]
      dsimp only
      cases hset : setProp? line name value with
      | none =>
          rw [hset, Option.isSome_none, Bool.false_eq_true, false_iff] at hfirst
          rw [Option.bind_none, Option.isSome_none, Bool.false_eq_true, false_iff]
          refine fun h => hfirst ?_
          rintro rfl
          exact h [] value props rfl
      | some next =>
          have hnext : setProp line name value = next := by rw [setProp, hset, Option.getD_some]
          rw [hset] at hfirst
          rw [Option.bind_some, ih]
          constructor
          · intro h as v bs hprops
            cases as with
            | nil =>
                obtain ⟨heq, -⟩ := List.cons.inj hprops
                exact hfirst.mp rfl (Prod.mk.inj heq).1
            | cons q as =>
                obtain ⟨rfl, hrest⟩ := List.cons.inj hprops
                rw [List.foldl_cons, hnext]
                exact h as v bs hrest
          · intro h as v bs hprops
            have hbehind := h ((name, value) :: as) v bs (by rw [hprops, List.cons_append])
            rwa [List.foldl_cons, hnext] at hbehind

/-- Props that are set one after the other are set as if each of them came to an end. -/
lemma foldl_setProp_of_foldlM {props : Fields}
    (h : props.foldlM (fun line (name, value) => setProp? line name value) line = some out) :
    out = props.foldl (fun line (name, value) => setProp line name value) line := by
  induction props generalizing line with
  | nil => exact (Option.some.inj h).symm
  | cons p props ih =>
      obtain ⟨name, value⟩ := p
      rw [List.foldlM_cons, Option.bind_eq_bind, Option.bind_eq_some_iff] at h
      obtain ⟨next, hnext, hrest⟩ := h
      have hset : setProp line name value = next := congrArg (Option.getD · line) hnext
      rw [ih hrest, List.foldl_cons]
      dsimp only
      rw [hset]

/-- **The search for an attribute ends, and with it the edits that rest on it, unless the name is
empty.** It stays within the tag and moves on by its name, whatever the name is; without a name it
never ends. A prop can be set on each line without a tag, and under each name that is not empty. An
update can be made unless a prop without a name is to be set on a line that has a tag by then. -/
theorem search_ends_iff (line : Text) :
    (∀ t, split? line = some t → ∀ name,
      t.IsSearched line name ∧ ((t.findAttribute? name).isSome ↔ name ≠ []))
    ∧ (∀ name value, (setProp? line name value).isSome ↔ (name = "" → split? line = none))
    ∧ ∀ u : Updates, ((u.made? line).isSome ↔ ∀ as v bs, u.props = as ++ ("", v) :: bs →
        split? ({ u with props := as }.apply line) = none)
      ∧ ∀ out, u.made? line = some out → out = u.apply line :=
  ⟨fun _ ht name => ⟨Tag.isSearched ht name, Tag.findAttribute?_isSome_iff ht name⟩,
    setProp?_isSome_iff line, fun u => ⟨foldlM_setProp?_isSome_iff u.props _,
      fun _ => foldl_setProp_of_foldlM⟩⟩

/-- The name searched for is first found as the end of another one. -/
theorem search_ends_iff_anchor :
    let line := "<a data-id=\"1\" id=\"2\">x</a>".toList
    let t : Tag := ⟨[], "<a data-id=\"1\" id=\"2\"".toList, ">x</a>".toList⟩
    let u : Updates := ⟨none, none, [("id", .null), ("title", .string "y")]⟩
    split? line = some t ∧ "id".toList ≠ [] ∧ t.IsSearched line "id".toList
      ∧ t.afterSteps "id".toList 1
        = .inr ⟨"<a data-id".toList, "=\"1\" id=\"2\"".toList, ">x</a>".toList⟩
      ∧ (t.findAttribute? "id".toList).isSome ∧ (setProp? line "id" .null).isSome
      ∧ (u.made? line).isSome := by
  intro line t u
  have hsplit : split? line = some t := by decide +kernel
  obtain ⟨hsearch, hprop, hupdate⟩ := search_ends_iff line
  obtain ⟨hwithin, hends⟩ := hsearch t hsplit "id".toList
  refine ⟨hsplit, by decide, hwithin, by decide +kernel, hends.mpr (by decide),
    (hprop "id" .null).mpr (by decide), (hupdate u).1.mpr fun as v bs hprops => ?_⟩
  have hmem : ("", v) ∈ u.props := by
    rw [hprops]
    simp
  simp [u] at hmem

/-- A search without a name never ends, so that nothing can be set under the empty name on a line
with a tag. -/
theorem search_never_ends :
    let t : Tag := ⟨[], "<a".toList, ">x</a>".toList⟩
    split? "<a>x</a>".toList = some t
      ∧ (∀ n, t.afterSteps [] n = .inr t)
      ∧ t.findAttribute? [] = none ∧ setProp? "<a>x</a>".toList "" .null = none
      ∧ Updates.made? ⟨none, none, [("", .null)]⟩ "<a>x</a>".toList = none := by
  intro t
  have hsplit : split? "<a>x</a>".toList = some t := by decide +kernel
  have hnever := Tag.findAttribute?_eq_none_of_stays (Tag.searchStep_nil hsplit)
  have hset : setProp? "<a>x</a>".toList "" .null = none := by
    rw [setProp?, hsplit]
    exact congrArg (Option.map _) hnever.2
  exact ⟨hsplit, hnever.1, hnever.2, hset, by
    rw [Updates.made?, List.foldlM_cons]
    exact congrArg (· >>= _) hset⟩

end CanvasSync.Line
