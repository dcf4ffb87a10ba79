import CanvasSync.Assist.Literal
import CanvasSync.Proofs.Assist.Positions
import CanvasSync.Proofs.Utility.Parts

/-!
Classes of a text, and what becomes of them when one is replaced.

* `IsWordIn`: a word with what stands around it in a literal;
* `wordsFrom_of_isWordIn`, `exists_of_mem_wordsFrom`: the words of a literal are such words;
* `exists_of_mem_literalsFrom`: another value in the quotes of a literal is the value of a literal,
  and the other literals stay;
* `exists_of_mem_classes`: another word in the place of a class is a class, and the other classes
  stay.
-/

namespace CanvasSync.Assist

variable {a b t u v w : Text} {c : Char} {n m : Nat}

/-! ### Words -/

/-- Whether a text is a word: it has characters, none of them blank. -/
def IsWord (w : Text) : Prop := w ≠ [] ∧ ∀ c ∈ w, isBlank c = false

/-- Whether a text is a word that what stands before and behind it does not make longer. -/
structure IsWordIn (a w b : Text) : Prop where
  isWord : IsWord w
  before : ∀ c ∈ a.getLast?, isBlank c
  behind : ∀ c ∈ b.head?, isBlank c

/-- A property holds of every text if it passes from what follows a blank, and from what follows a
whole word, to the whole. -/
@[elab_as_elim]
theorem wordsInduction {P : Text → Prop} (nil : P [])
    (blank : ∀ c t, isBlank c → P t → P (c :: t))
    (word : ∀ w b, IsWord w → (∀ c ∈ b.head?, isBlank c) → P b → P (w ++ b)) (t : Text) : P t := by
  obtain ⟨k, hk⟩ : ∃ k, t.length = k := ⟨_, rfl⟩
  induction k using Nat.strongRecOn generalizing t with
  | ind k ih =>
    cases t with
    | nil => exact nil
    | cons c t =>
        by_cases hc : isBlank c
        · exact blank c t hc (ih t.length (by rw [← hk]; simp) t rfl)
        · have hsplit : (c :: t).takeWhile (fun d => !isBlank d)
              ++ (c :: t).dropWhile (fun d => !isBlank d) = c :: t :=
            List.takeWhile_append_dropWhile
          have hw : IsWord ((c :: t).takeWhile fun d => !isBlank d) :=
            ⟨by simp [hc], fun d hd => by simpa using List.all_eq_true.mp List.all_takeWhile d hd⟩
          have hpos := List.length_pos_iff.mpr hw.1
          have hlength := congrArg List.length hsplit
          rw [List.length_append, hk] at hlength
          rw [← hsplit]
          refine word _ _ hw (fun d hd => ?_) (ih _ (by omega) _ rfl)
          have hhead := List.head?_dropWhile_not (fun d => !isBlank d) (c :: t)
          rw [hd] at hhead
          simpa using hhead

lemma wordsFrom_cons_blank (hc : isBlank c) (n : Nat) (t : Text) :
    wordsFrom n (c :: t) = wordsFrom (n + c.utf8Size) t := by
  rw [wordsFrom]
  exact if_pos hc

/-- The words of a text start within it. -/
lemma le_start_of_mem_wordsFrom {x : Word} (h : x ∈ wordsFrom n t) : n ≤ x.start := by
  induction t generalizing n x with
  | nil => cases h
  | cons c t ih =>
      have hrest {y : Word} (hy : y ∈ wordsFrom (n + c.utf8Size) t) : n ≤ y.start :=
        Nat.le_trans (Nat.le_add_right n _) (ih hy)
      rw [wordsFrom] at h
      split at h
      · exact hrest h
      split at h
      · obtain rfl := List.mem_singleton.mp h
        exact Nat.le_refl n
      · next y ys hys =>
          rw [hys] at hrest
          split at h
          · rcases List.mem_cons.mp h with rfl | h
            · exact Nat.le_refl n
            · exact hrest (List.mem_cons_of_mem y h)
          · rcases List.mem_cons.mp h with rfl | h
            · exact Nat.le_refl n
            · exact hrest h

/-- A word at the start of a text is its first word. -/
lemma wordsFrom_isWord_append (hw : IsWord w) (hb : ∀ c ∈ b.head?, isBlank c) (n : Nat) :
    wordsFrom n (w ++ b) = ⟨n, w⟩ :: wordsFrom (n + Text.size w) b := by
  obtain ⟨hne, hsolid⟩ := hw
  induction w generalizing n with
  | nil => exact absurd rfl hne
  | cons c w ih =>
      rw [List.forall_mem_cons] at hsolid
      have hc : ¬isBlank c := by simp [hsolid.1]
      rw [List.cons_append, wordsFrom]
      rw [if_neg hc]
      by_cases hw : w = []
      · -- what follows starts with a blank, so that the next word starts later
        subst hw
        rw [List.nil_append, Text.size_cons, Text.size_nil, Nat.add_zero]
        split
        · next hnil => rw [hnil]
        · next x xs hxs =>
            obtain ⟨d, b, rfl⟩ : ∃ d b', b = d :: b' := by
              cases b with
              | nil => cases hxs
              | cons d b => exact ⟨d, b, rfl⟩
            have hd : isBlank d := hb d rfl
            have hlater : n + c.utf8Size + d.utf8Size ≤ x.start :=
              le_start_of_mem_wordsFrom (t := b) (by
                rw [← wordsFrom_cons_blank hd, hxs]
                exact List.mem_cons_self)
            have hpos := d.utf8Size_pos
            rw [if_neg (by omega), hxs]
      · rw [ih _ hw hsolid.2]
        simp only [if_true, Text.size_cons, Nat.add_assoc]

/-- The words of a text around a blank are those before it and those behind it. -/
lemma wordsFrom_append_blank (hc : isBlank c) (n : Nat) (a t : Text) :
    wordsFrom n (a ++ c :: t)
      = wordsFrom n a ++ wordsFrom (n + Text.size a + c.utf8Size) t := by
  induction a generalizing n with
  | nil =>
      rw [List.nil_append, wordsFrom_cons_blank hc]
      rfl
  | cons d a ih =>
      rw [List.cons_append, wordsFrom, ih, wordsFrom, Text.size_cons, ← Nat.add_assoc]
      split
      · rfl
      · cases hrest : wordsFrom (n + d.utf8Size) a with
        | nil =>
            rw [List.nil_append]
            split
            · next hnil => rw [hnil]; rfl
            · next x xs hxs =>
                have hlater := le_start_of_mem_wordsFrom
                  (n := n + d.utf8Size + Text.size a + c.utf8Size) (t := t) (x := x)
                  (by rw [hxs]; exact List.mem_cons_self)
                have hpos := c.utf8Size_pos
                rw [if_neg (by omega), hxs]
                rfl
        | cons x xs =>
            rw [List.cons_append]
            simp only
            split <;> rfl

/-- **The words of a text around a word.** -/
theorem wordsFrom_of_isWordIn (h : IsWordIn a w b) (n : Nat) : wordsFrom n (a ++ (w ++ b))
    = wordsFrom n a ++ ⟨n + Text.size a, w⟩ :: wordsFrom (n + Text.size a + Text.size w) b := by
  have hword := wordsFrom_isWord_append h.isWord h.behind
  rcases List.eq_nil_or_concat a with rfl | ⟨a, c, rfl⟩
  · rw [List.nil_append, hword]
    rfl
  · have hc : isBlank c := h.before c (by simp)
    have hfront : wordsFrom n (a ++ [c]) = wordsFrom n a := by
      rw [wordsFrom_append_blank hc]
      exact List.append_nil _
    rw [List.concat_eq_append, hfront, List.append_assoc, List.singleton_append,
      wordsFrom_append_blank hc, hword, Text.size_append, Text.size_cons, Text.size_nil,
      Nat.add_zero, ← Nat.add_assoc]

/-- **Each of the words of a text stands in it as a word.** -/
theorem exists_of_mem_wordsFrom {x : Word} (h : x ∈ wordsFrom n t) :
    ∃ a b, t = a ++ (x.text ++ b) ∧ x.start = n + Text.size a ∧ IsWordIn a x.text b := by
  induction t using wordsInduction generalizing n with
  | nil => cases h
  | blank c t hc ih =>
      rw [wordsFrom_cons_blank hc] at h
      obtain ⟨a, b, rfl, hstart, hword⟩ := ih h
      refine ⟨c :: a, b, rfl, by rw [hstart, Text.size_cons, Nat.add_assoc], hword.isWord,
        fun d hd => ?_, hword.behind⟩
      cases a with
      | nil =>
          obtain rfl : c = d := by simpa using hd
          exact hc
      | cons e a => exact hword.before d (by simpa using hd)
  | word w r hw hr ih =>
      rw [wordsFrom_isWord_append hw hr] at h
      rcases List.mem_cons.mp h with rfl | h
      · exact ⟨[], r, rfl, rfl, hw, fun d hd => by simp at hd, hr⟩
      · obtain ⟨a, b, rfl, hstart, hword⟩ := ih h
        refine ⟨w ++ a, b, (List.append_assoc _ _ _).symm,
          by rw [hstart, Text.size_append, Nat.add_assoc], hword.isWord, fun d hd => ?_,
          hword.behind⟩
        cases a with
        | nil =>
            -- the word would start where the rest starts with a blank
            obtain ⟨e, x', hx'⟩ := List.exists_cons_of_ne_nil hword.isWord.1
            have hblank := hr e (by rw [hx']; rfl)
            have hsolid := hword.isWord.2 e (by rw [hx']; exact List.mem_cons_self)
            rw [hsolid] at hblank
            cases hblank
        | cons e a =>
            exact hword.before d (by
              rwa [List.getLast?_append_of_ne_nil _ (List.cons_ne_nil e a)] at hd)

/-- The words of a text do not depend on where it starts. -/
lemma map_text_wordsFrom (n m : Nat) (t : Text) :
    (wordsFrom n t).map Word.text = (wordsFrom m t).map Word.text := by
  have hshift (n k : Nat) (t : Text) :
      wordsFrom (n + k) t = (wordsFrom n t).map fun w => ⟨w.start + k, w.text⟩ := by
    induction t generalizing n with
    | nil => rfl
    | cons c t ih =>
        have hstart : n + k + c.utf8Size = n + c.utf8Size + k := by omega
        rw [wordsFrom, wordsFrom, hstart, ih]
        split
        · rfl
        · cases wordsFrom (n + c.utf8Size) t with
          | nil => rfl
          | cons w ws =>
              have hsame : w.start + k = n + c.utf8Size + k ↔ w.start = n + c.utf8Size := by omega
              simp only [List.map_cons, hsame]
              split <;> rfl
  rw [← Nat.zero_add n, hshift, ← Nat.zero_add m, hshift]
  simp

/-! ### Literals -/

/-- Whether a text may stand in the quotes of another: it has no quote that the other has not. -/
def FitsQuotes (v w : Text) : Prop := ∀ q, isQuote q → q ∉ v → q ∉ w

lemma quoted?_eq_some_iff {rest : Text} : quoted? t = some (v, rest)
    ↔ ∃ q, isQuote q ∧ q ∉ v ∧ t = q :: (v ++ q :: rest) := by
  cases t with
  | nil => simp [quoted?]
  | cons q t =>
      rw [quoted?]
      split
      · next hq =>
          rw [Text.cut?_singleton_eq_some_iff]
          constructor
          · rintro ⟨rfl, hv⟩
            exact ⟨q, hq, hv, rfl⟩
          · rintro ⟨q', -, hv, heq⟩
            obtain ⟨rfl, rfl⟩ := List.cons_eq_cons.mp heq
            exact ⟨rfl, hv⟩
      · next hq =>
          refine iff_of_false (fun h => by cases h) ?_
          rintro ⟨q', hq', -, heq⟩
          obtain ⟨rfl, -⟩ := List.cons_eq_cons.mp heq
          exact hq hq'

lemma utf8Size_of_isQuote {q : Char} (hq : isQuote q) : q.utf8Size = 1 := by
  simp only [isQuote, Bool.or_eq_true, decide_eq_true_eq] at hq
  rcases hq with (rfl | rfl) | rfl <;> rfl

lemma ne_brace_of_isQuote {q : Char} (hq : isQuote q) : q ≠ '\x7b' := by
  rintro rfl
  exact absurd hq (by decide)

lemma value?_of_ne_brace (hc : c ≠ '\x7b') (n : Nat) (t : Text) :
    value? n (c :: t) = (quoted? (c :: t)).map fun (v, rest) => (⟨n + 1, v⟩, rest) := by
  unfold value?
  split
  · next heq => exact absurd (List.cons_eq_cons.mp heq).1 hc
  · rfl

/-- A value in quotes with what stands around it: another value in the same quotes is read. -/
lemma exists_of_value? {l : Literal} {rest : Text} (h : value? n t = some (l, rest)) :
    ∃ a q, isQuote q ∧ t = a ++ (l.value ++ q :: rest) ∧ l.start = n + Text.size a
      ∧ ∀ v rest', FitsQuotes l.value v →
        value? n (a ++ (v ++ q :: rest')) = some (⟨l.start, v⟩, rest') := by
  unfold value? at h
  split at h
  · next t =>
      obtain ⟨⟨v, r⟩, hquoted, hl⟩ := Option.map_eq_some_iff.mp h
      obtain ⟨rfl, rfl⟩ := Prod.mk.inj hl
      obtain ⟨q, hq, hv, rfl⟩ := quoted?_eq_some_iff.mp hquoted
      have hbrace : '\x7b'.utf8Size = 1 := rfl
      refine ⟨['\x7b', q], q, hq, rfl, by simp [utf8Size_of_isQuote hq, hbrace],
        fun w rest' hw => ?_⟩
      have hread : quoted? (q :: (w ++ q :: rest')) = some (w, rest') :=
        quoted?_eq_some_iff.mpr ⟨q, hq, hw q hq hv, rfl⟩
      simp [value?, hread]
  · obtain ⟨⟨v, r⟩, hquoted, hl⟩ := Option.map_eq_some_iff.mp h
    obtain ⟨rfl, rfl⟩ := Prod.mk.inj hl
    obtain ⟨q, hq, hv, rfl⟩ := quoted?_eq_some_iff.mp hquoted
    refine ⟨[q], q, hq, rfl, by simp [utf8Size_of_isQuote hq], fun w rest' hw => ?_⟩
    have hread : quoted? (q :: (w ++ q :: rest')) = some (w, rest') :=
      quoted?_eq_some_iff.mpr ⟨q, hq, hw q hq hv, rfl⟩
    rw [List.singleton_append, value?_of_ne_brace (ne_brace_of_isQuote hq), hread]
    rfl

/-- No value in quotes is there if there was none before a part behind the first two characters was
replaced by one that fits the same quotes. -/
lemma value?_eq_none_replace (ha : 2 ≤ a.length) (hv : FitsQuotes u v)
    (h : value? n (a ++ (u ++ b)) = none) : value? n (a ++ (v ++ b)) = none := by
  obtain ⟨c, d, a, rfl⟩ : ∃ c d a', a = c :: d :: a' := by
    match a, ha with
    | c :: d :: a, _ => exact ⟨c, d, a, rfl⟩
  have hquoted (c : Char) (a : Text) (h : quoted? (c :: (a ++ (u ++ b))) = none) :
      quoted? (c :: (a ++ (v ++ b))) = none := by
    rw [Option.eq_none_iff_forall_ne_some] at h ⊢
    rintro ⟨w, rest⟩ hsome
    obtain ⟨q, hq, -, heq⟩ := quoted?_eq_some_iff.mp hsome
    obtain ⟨rfl, htext⟩ := List.cons_eq_cons.mp heq
    -- the quote that closes the value stands in one of the parts, and was there before
    have hmem : c ∈ a ++ (u ++ b) := by
      have hc : c ∈ a ++ (v ++ b) := by
        rw [htext]
        simp
      simp only [List.mem_append] at hc ⊢
      have hin : c ∈ v → c ∈ u := fun hmem => by_contra fun hnot => hv c hq hnot hmem
      tauto
    obtain ⟨x, y, hsplit, hx⟩ := List.eq_append_cons_of_mem hmem
    exact h (x, y) (quoted?_eq_some_iff.mpr ⟨c, hq, hx, by rw [hsplit]⟩)
  by_cases hc : c = '\x7b'
  · subst hc
    simp only [value?, List.cons_append, Option.map_eq_none_iff] at h ⊢
    exact hquoted d a h
  · rw [List.cons_append, value?_of_ne_brace hc, Option.map_eq_none_iff] at h ⊢
    exact hquoted c (d :: a) h

lemma value?_offset (n m : Nat) (t : Text) :
    (value? n t).map (fun r => (r.1.value, r.2)) = (value? m t).map fun r => (r.1.value, r.2) := by
  unfold value?
  split <;> rw [Option.map_map, Option.map_map] <;> rfl

/-- The values of the literals of a text do not depend on where it starts. -/
lemma map_value_literalsFrom (fuel n m : Nat) (t : Text) :
    (literalsFrom fuel n t).map Literal.value = (literalsFrom fuel m t).map Literal.value := by
  induction fuel generalizing n m t with
  | zero => rfl
  | succ fuel ih =>
      rw [literalsFrom, literalsFrom]
      cases Text.cut? attributeMark t with
      | none => rfl
      | some r =>
          obtain ⟨before, rest⟩ := r
          have hoffset := value?_offset (n + Text.size before + Text.size attributeMark)
            (m + Text.size before + Text.size attributeMark) rest
          simp only
          cases hn : value? (n + Text.size before + Text.size attributeMark) rest with
          | none =>
              rw [hn, Option.map_none, eq_comm, Option.map_eq_none_iff] at hoffset
              rw [hoffset]
              exact ih _ _ rest
          | some x =>
              rw [hn, Option.map_some, eq_comm, Option.map_eq_some_iff] at hoffset
              obtain ⟨y, hy, hsame⟩ := hoffset
              obtain ⟨hvalue, hrest⟩ := Prod.mk.inj hsame
              rw [hy]
              simp only [List.map_cons, hvalue, hrest]
              rw [ih]

lemma length_lt_of_cut? {before rest : Text}
    (h : Text.cut? attributeMark t = some (before, rest)) : rest.length < t.length := by
  have hmark : attributeMark.length = 10 := by decide
  rw [Text.eq_of_cut? h, List.length_append, List.length_append, hmark]
  omega

lemma length_lt_of_value? {l : Literal} {rest : Text} (h : value? n t = some (l, rest)) :
    rest.length < t.length := by
  obtain ⟨a, q, -, rfl, -⟩ := exists_of_value? h
  rw [List.length_append, List.length_append, List.length_cons]
  omega

/-- Fuel for every character is enough. -/
lemma literalsFrom_of_lt {fuel : Nat} (h : t.length < fuel) (n : Nat) :
    literalsFrom fuel n t = literalsFrom (t.length + 1) n t := by
  obtain ⟨k, hk⟩ : ∃ k, t.length = k := ⟨_, rfl⟩
  induction k using Nat.strongRecOn generalizing t n fuel with
  | ind k ih =>
    obtain ⟨fuel, rfl⟩ : ∃ f, fuel = f + 1 := ⟨fuel - 1, by omega⟩
    rw [literalsFrom, literalsFrom]
    cases hcut : Text.cut? attributeMark t with
    | none => rfl
    | some r =>
        obtain ⟨before, rest⟩ := r
        have hlength := length_lt_of_cut? hcut
        have hrest {r : Text} (hr : r.length ≤ rest.length) (m : Nat) :
            literalsFrom fuel m r = literalsFrom t.length m r := by
          have hlong : literalsFrom t.length m r = literalsFrom (r.length + 1) m r :=
            ih r.length (by omega) (by omega) m rfl
          rw [ih r.length (by omega) (by omega) m rfl, hlong]
        simp only
        split
        · next l r hvalue => rw [hrest (Nat.le_of_lt (length_lt_of_value? hvalue))]
        · rw [hrest (Nat.le_refl _)]

lemma literalsFrom_of_cut? {before rest : Text}
    (h : Text.cut? attributeMark t = some (before, rest)) (fuel n : Nat) :
    literalsFrom (fuel + 1) n t
      = match value? (n + Text.size before + Text.size attributeMark) rest with
        | some (l, r) => l :: literalsFrom fuel (l.stop + 1) r
        | none => literalsFrom fuel (n + Text.size before + Text.size attributeMark) rest := by
  cases hvalue : value? (n + Text.size before + Text.size attributeMark) rest with
  | none => simp only [literalsFrom, h, hvalue]
  | some r => simp only [literalsFrom, h, hvalue]

/-- **Another value in the quotes of a literal is the value of a literal**, and the other literals
of the text stay. -/
theorem exists_of_mem_literalsFrom {fuel : Nat} {l : Literal} (h : l ∈ literalsFrom fuel n t) :
    ∃ a b ls ls', t = a ++ (l.value ++ b) ∧ l.start = n + Text.size a ∧ 2 ≤ a.length
      ∧ literalsFrom fuel n t = ls ++ l :: ls'
      ∧ ∀ v, FitsQuotes l.value v → ∃ ls'', literalsFrom fuel n (a ++ (v ++ b))
          = ls ++ ⟨l.start, v⟩ :: ls'' ∧ ls''.map Literal.value = ls'.map Literal.value := by
  induction fuel generalizing n t with
  | zero => cases h
  | succ fuel ih =>
      have hmark : attributeMark ≠ [] ∧ attributeMark.length = 10 := by decide
      cases hcut : Text.cut? attributeMark t with
      | none =>
          rw [literalsFrom, hcut] at h
          cases h
      | some r =>
          obtain ⟨before, rest⟩ := r
          obtain rfl := Text.eq_of_cut? hcut
          -- what is read first of a text with the same start
          have hnext (rest' : Text) :=
            literalsFrom_of_cut? (Text.cut?_append_of_cut? hmark.1 hcut rest') fuel n
          have hlong (x : Text) : 2 ≤ (before ++ (attributeMark ++ x)).length := by
            rw [List.length_append, List.length_append, hmark.2]
            omega
          have hassoc (x y : Text) : before ++ (attributeMark ++ x) ++ y
              = before ++ (attributeMark ++ (x ++ y)) := by
            simp only [List.append_assoc]
          rw [hnext] at h ⊢
          cases hvalue : value? (n + Text.size before + Text.size attributeMark) rest with
          | some x =>
              obtain ⟨first, r⟩ := x
              obtain ⟨x, q, hq, rfl, hstart, hother⟩ := exists_of_value? hvalue
              rw [hvalue] at h
              rcases List.mem_cons.mp h with rfl | h
              · refine ⟨before ++ (attributeMark ++ x), q :: r, [], literalsFrom fuel (l.stop + 1) r,
                  (hassoc _ _).symm, ?_, hlong x, rfl, fun v hv => ⟨_, ?_,
                    map_value_literalsFrom fuel ((⟨l.start, v⟩ : Literal).stop + 1) (l.stop + 1) r⟩⟩
                · rw [hstart, Text.size_append, Text.size_append]
                  omega
                · rw [hassoc, hnext, hother v r hv]
                  rfl
              · obtain ⟨a, b, ls, ls', rfl, hl, -, hls, hrest⟩ := ih h
                refine ⟨before ++ (attributeMark ++ (x ++ (first.value ++ q :: a))), b, first :: ls,
                  ls', by simp only [List.append_assoc, List.cons_append], ?_, hlong _,
                  by simp only [hls, List.cons_append], fun v hv => ?_⟩
                · rw [hl, Literal.stop, hstart]
                  simp only [Text.size_append, Text.size_cons, utf8Size_of_isQuote hq]
                  omega
                · obtain ⟨ls'', hls'', hmap⟩ := hrest v hv
                  refine ⟨ls'', ?_, hmap⟩
                  have hsame := hother first.value (a ++ (v ++ b)) fun _ _ h => h
                  rw [hassoc, hnext, List.append_assoc, List.append_assoc, List.cons_append, hsame]
                  simp only [hls'', List.cons_append]
          | none =>
              rw [hvalue] at h
              obtain ⟨a, b, ls, ls', rfl, hl, ha, hls, hrest⟩ := ih h
              refine ⟨before ++ (attributeMark ++ a), b, ls, ls', (hassoc _ _).symm, ?_, hlong a,
                hls, fun v hv => ?_⟩
              · rw [hl, Text.size_append, Text.size_append]
                omega
              · obtain ⟨ls'', hls'', hmap⟩ := hrest v hv
                refine ⟨ls'', ?_, hmap⟩
                rw [hassoc, hnext, value?_eq_none_replace ha hv hvalue]
                exact hls''

/-- The same of all the literals of a text. -/
lemma exists_of_mem_literals {l : Literal} (h : l ∈ literals t) (v : Text) :
    ∃ a b ls ls', t = a ++ (l.value ++ b) ∧ l.start = Text.size a ∧ literals t = ls ++ l :: ls'
      ∧ (FitsQuotes l.value v → ∃ ls'', literals (a ++ (v ++ b)) = ls ++ ⟨l.start, v⟩ :: ls''
        ∧ ls''.map Literal.value = ls'.map Literal.value) := by
  -- enough fuel for both texts
  have hfuel {u : Text} (hu : u.length < t.length + v.length + 1) :
      literals u = literalsFrom (t.length + v.length + 1) 0 u := (literalsFrom_of_lt hu 0).symm
  have ht := hfuel (u := t) (by omega)
  rw [ht] at h ⊢
  obtain ⟨a, b, ls, ls', htext, hstart, -, hls, hother⟩ := exists_of_mem_literalsFrom h
  have hlength := congrArg List.length htext
  rw [List.length_append, List.length_append] at hlength
  refine ⟨a, b, ls, ls', htext, by rw [hstart, Nat.zero_add], hls, fun hfits => ?_⟩
  rw [hfuel (by rw [List.length_append, List.length_append]; omega)]
  exact hother v hfits

/-! ### Classes -/

/-- The classes of a text: the words of its literals. -/
def classes (t : Text) : List Word := (literals t).flatMap Literal.words

/-- The classes in literals do not depend on where these start. -/
lemma map_text_words {ls ls' : List Literal} (h : ls.map Literal.value = ls'.map Literal.value) :
    (ls.flatMap Literal.words).map Word.text = (ls'.flatMap Literal.words).map Word.text := by
  have hvalues (ls : List Literal) : (ls.flatMap Literal.words).map Word.text
      = (ls.map Literal.value).flatMap fun v => (wordsFrom 0 v).map Word.text := by
    rw [List.map_flatMap, List.flatMap_map]
    exact List.flatMap_congr fun l _ => map_text_wordsFrom l.start 0 l.value
  rw [hvalues, hvalues, h]

/-- **Another word in the place of a class is a class**, and the other classes of the text stay. -/
theorem exists_of_mem_classes {x : Word} (h : x ∈ classes t) (w : Text) :
    ∃ a b ws ws', t = a ++ (x.text ++ b) ∧ x.start = Text.size a ∧ IsWord x.text
      ∧ classes t = ws ++ x :: ws'
      ∧ (IsWord w → FitsQuotes x.text w → ∃ ws'', classes (a ++ (w ++ b))
        = ws ++ ⟨x.start, w⟩ :: ws'' ∧ ws''.map Word.text = ws'.map Word.text) := by
  obtain ⟨l, hl, hx⟩ := List.mem_flatMap.mp h
  obtain ⟨a, b, hvalue, hstart, hword⟩ := exists_of_mem_wordsFrom hx
  obtain ⟨a', b', ls, ls', ht, hlstart, hls, hother⟩ := exists_of_mem_literals hl (a ++ (w ++ b))
  -- the words of the literal if some word stands in the place of the class
  have hwords {w : Text} (hw : IsWord w) :
      (⟨l.start, a ++ (w ++ b)⟩ : Literal).words = wordsFrom l.start a
        ++ ⟨x.start, w⟩ :: wordsFrom (x.start + Text.size w) b := by
    rw [hstart]
    exact wordsFrom_of_isWordIn ⟨hw, hword.before, hword.behind⟩ l.start
  have hl : l.words = wordsFrom l.start a ++ x :: wordsFrom (x.start + Text.size x.text) b := by
    have hwords := hwords hword.isWord
    rwa [← hvalue] at hwords
  refine ⟨a' ++ a, b ++ b', ls.flatMap Literal.words ++ wordsFrom l.start a,
    wordsFrom (x.start + Text.size x.text) b ++ ls'.flatMap Literal.words,
    by rw [ht, hvalue]; simp only [List.append_assoc], by rw [hstart, hlstart, Text.size_append],
    hword.isWord, ?_, fun hw hfits => ?_⟩
  · rw [classes, hls, List.flatMap_append, List.flatMap_cons, hl]
    simp only [List.append_assoc, List.cons_append]
  · have hquotes : FitsQuotes l.value (a ++ (w ++ b)) := by
      intro q hq hnot
      rw [hvalue] at hnot
      simp only [List.mem_append, not_or] at hnot ⊢
      exact ⟨hnot.1, hfits q hq hnot.2.1, hnot.2.2⟩
    obtain ⟨ls'', hls'', hmap⟩ := hother hquotes
    refine ⟨wordsFrom (x.start + Text.size w) b ++ ls''.flatMap Literal.words, ?_, ?_⟩
    · have hassoc : a' ++ a ++ (w ++ (b ++ b')) = a' ++ (a ++ (w ++ b) ++ b') := by
        simp only [List.append_assoc]
      rw [hassoc, classes, hls'', List.flatMap_append, List.flatMap_cons, hwords hw]
      simp only [List.append_assoc, List.cons_append]
    · rw [List.map_append, List.map_append, map_text_words hmap]
      congr 1
      exact map_text_wordsFrom _ _ b

end CanvasSync.Assist
