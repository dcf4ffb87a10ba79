import CanvasSync.Line.Edit
import CanvasSync.Proofs.Json.RoundTrip
import CanvasSync.Proofs.Line.Scanning

/-!
The text of an element on one line, set twice.

A text is looked for up to the next less-than sign. A text with such a sign in it is written as a
string in braces, but the search for the sign does not know of strings, so that such a text is not
found again as a whole.

* `IsFilled`: a line around the text of its first element;
* `setTextContent_of_isFilled`: a text takes the place of the one before;
* `contentText_eq_append`: what is written for a text with a less-than sign, around this sign;
* `setTextContent_again_iff`: of two texts set one after the other, the last one counts exactly if
  the first one is found again.
-/

namespace CanvasSync.Line

open CanvasSync.Json (escape quote readStringBody?_quote)
open CanvasSync.Markup (contentText needsBraces)
open Tag (split? split?_eq_some_iff)

variable {line x y z a b s u : Text} {t : Tag} {c : Char}

/-! ### What is written for a text -/

/-- What stands for a character in a string begins with this character or with a backslash. -/
lemma exists_escape_eq_cons (c : Char) : ∃ d w, escape c = d :: w ∧ (d = c ∨ d = '\\') := by
  rw [escape]
  split_ifs <;> simp

/-- No less-than sign stands for another character. -/
lemma less_notMem_escape (h : c ≠ '<') : '<' ∉ escape c := by
  have hdigit (n : Nat) : Json.hexDigit n ≠ '<' := by
    have hall : ∀ n < 16, Json.hexDigit n ≠ '<' := by decide
    rw [← Json.hexDigit_mod]
    exact hall _ (Nat.mod_lt _ (by omega))
  rw [escape]
  split_ifs <;> simp [Ne.symm h, Ne.symm (hdigit _)]

lemma less_notMem_escaped (h : '<' ∉ s) : '<' ∉ s.flatMap escape := by
  simp only [List.mem_flatMap, not_exists, not_and]
  rintro d hd
  exact less_notMem_escape fun heq => h (heq ▸ hd)

lemma needsBraces_of_less (h : '<' ∈ s) : s.any needsBraces :=
  List.any_eq_true.mpr ⟨'<', h, rfl⟩

/-- A text without a less-than sign is written without one. -/
lemma less_notMem_contentText (h : '<' ∉ s) : '<' ∉ contentText s := by
  rw [contentText]
  split
  · simp [quote, less_notMem_escaped h]
  · exact h

/-- A text with a less-than sign is written around this sign as a string in braces. -/
lemma contentText_eq_append (a b : Text) : contentText (a ++ '<' :: b)
    = ('\x7b' :: '"' :: a.flatMap escape) ++ '<' :: (b.flatMap escape ++ ['"', '\x7d']) := by
  have hless : escape '<' = ['<'] := by decide
  rw [contentText, if_pos (needsBraces_of_less (by simp)), quote]
  simp [hless]

lemma escaped_injective (h : s.flatMap escape = u.flatMap escape) : s = u := by
  have hs : Json.readStringBody? ((s.flatMap escape ++ ['"']).length + 1)
      (s.flatMap escape ++ ['"']) = some (s, []) := readStringBody?_quote s
  rw [h, readStringBody?_quote] at hs
  exact (Prod.mk.inj (Option.some.inj hs)).1.symm

/-- Different texts are written differently if one of them has a less-than sign. -/
lemma contentText_eq_iff (h : '<' ∈ s) : contentText s = contentText u ↔ s = u := by
  refine ⟨fun heq => ?_, congrArg contentText⟩
  rw [contentText, if_pos (needsBraces_of_less h), contentText] at heq
  split at heq
  · exact escaped_injective (by simpa [quote] using heq)
  · next hplain =>
      -- a text that begins with a brace needs braces
      refine absurd (List.any_eq_true.mpr ⟨'\x7b', ?_, rfl⟩) hplain
      rw [← heq]
      exact List.mem_cons_self

/-! ### One text -/

/-- A line around the text of its first element: a tag that does not close itself, the text without
a tag in it, and the beginning of a closing tag. -/
structure IsFilled (line : Text) (t : Tag) (x y : Text) : Prop where
  tag : split? line = some t
  opens : t.closesItself = false
  after : t.after = '>' :: (x ++ '<' :: '/' :: y)
  text : '<' ∉ x

/-- A line with a text between its first tag and what follows. -/
def filled (t : Tag) (x y : Text) : Text := t.head ++ '>' :: (x ++ '<' :: '/' :: y)

/-- The parts of a line are those of any line that goes on differently behind its first tag. -/
lemma split?_of_split? (h : split? line = some t) (z : Text) :
    split? (t.head ++ '>' :: z) = some { t with after := '>' :: z } := by
  obtain ⟨-, hbefore, hbody, -⟩ := split?_eq_some_iff.mp h
  exact split?_eq_some_iff.mpr ⟨by simp [Tag.head], hbefore, hbody, z, rfl⟩

lemma isFilled_filled (h : split? line = some t) (hopens : t.closesItself = false) (hx : '<' ∉ x)
    (y : Text) : IsFilled (filled t x y) { t with after := '>' :: (x ++ '<' :: '/' :: y) } x y :=
  ⟨split?_of_split? h _, hopens, rfl, hx⟩

/-- **A text takes the place of the one before.** -/
theorem setTextContent_of_isFilled (h : IsFilled line t x y) (s : Text) :
    setTextContent line s = filled t (contentText s) y := by
  have hdrop : (x ++ '<' :: '/' :: y).dropWhile (· ≠ '<') = '<' :: '/' :: y := by
    rw [List.dropWhile_append_of_pos fun c hc => ?_]
    · rfl
    · rw [decide_eq_true_eq]
      rintro rfl
      exact h.text hc
  rw [setTextContent, h.tag]
  simp only [h.opens, h.after, List.drop_succ_cons, List.drop_zero, hdrop]
  simp [filled]

/-- A line without a text in its first element stays as it is. -/
theorem setTextContent_of_not_isFilled (h : ∀ t x y, ¬IsFilled line t x y) (s : Text) :
    setTextContent line s = line := by
  rw [setTextContent]
  split
  · rfl
  · next t ht =>
      obtain ⟨-, -, -, post, hafter⟩ := split?_eq_some_iff.mp ht
      split
      · rfl
      · next hopens =>
          split
          · next rest hrest =>
              refine absurd ⟨ht, by simpa using hopens, ?_, ?_⟩
                (h t (post.takeWhile (· ≠ '<')) rest)
              · rw [hafter, List.drop_succ_cons, List.drop_zero] at hrest
                rw [hafter, ← hrest, List.takeWhile_append_dropWhile]
              · intro hmem
                simpa using List.all_eq_true.mp List.all_takeWhile _ hmem
          · rfl

/-! ### Two texts -/

/-- Whether a text ends at its first less-than sign when it is looked for on its line: a slash
follows, as in a closing tag. -/
def EndsEarly (s : Text) : Prop := ∃ a b, s = a ++ '<' :: '/' :: b ∧ '<' ∉ a

/-- A text without a less-than sign is replaced by the next one. -/
lemma setTextContent_again_of_notMem (h : IsFilled line t x y) (hs : '<' ∉ s) (u : Text) :
    setTextContent (setTextContent line s) u = setTextContent line u := by
  rw [setTextContent_of_isFilled h s, setTextContent_of_isFilled h u,
    setTextContent_of_isFilled (isFilled_filled h.tag h.opens (less_notMem_contentText hs) y)]
  rfl

/-- Of a text that ends early, what follows its first less-than sign is left. -/
lemma setTextContent_again_of_endsEarly (h : IsFilled line t x y) (ha : '<' ∉ a) (u : Text) :
    setTextContent (setTextContent line (a ++ '<' :: '/' :: b)) u
      = filled t (contentText u) (b.flatMap escape ++ '"' :: '\x7d' :: '<' :: '/' :: y) := by
  have hslash : escape '/' = ['/'] := by decide
  have hfilled : filled t (contentText (a ++ '<' :: '/' :: b)) y
      = filled t ('\x7b' :: '"' :: a.flatMap escape)
          (b.flatMap escape ++ '"' :: '\x7d' :: '<' :: '/' :: y) := by
    rw [contentText_eq_append]
    simp [filled, hslash]
  have hfree : '<' ∉ '\x7b' :: '"' :: a.flatMap escape := by
    simp [less_notMem_escaped ha]
  rw [setTextContent_of_isFilled h, hfilled,
    setTextContent_of_isFilled (isFilled_filled h.tag h.opens hfree _)]
  rfl

/-- A text with a less-than sign that does not end early is not replaced any more. -/
lemma setTextContent_again_of_mem (h : IsFilled line t x y) (hs : '<' ∈ s) (hearly : ¬EndsEarly s)
    (u : Text) : setTextContent (setTextContent line s) u = setTextContent line s := by
  refine setTextContent_of_not_isFilled (fun t' x' y' h' => ?_) u
  obtain ⟨a, b, rfl, ha⟩ := List.eq_append_cons_of_mem hs
  have htag := h'.tag
  rw [setTextContent_of_isFilled h, filled, split?_of_split? h.tag] at htag
  have hafter := h'.after
  rw [← Option.some.inj htag, contentText_eq_append, List.append_assoc, List.cons_append] at hafter
  -- both sides around their first less-than sign
  have hfree : '<' ∉ '\x7b' :: '"' :: a.flatMap escape := by
    simp [less_notMem_escaped ha]
  have hcut := Text.cut?_singleton_eq_some_iff.mpr ⟨(List.cons.inj hafter).2.symm, hfree⟩
  rw [Text.cut?_singleton_eq_some_iff.mpr ⟨rfl, h'.text⟩] at hcut
  have hbehind := (Prod.mk.inj (Option.some.inj hcut)).2
  cases b with
  | nil => simp at hbehind
  | cons d b =>
      obtain ⟨e, w, hescape, hcases⟩ := exists_escape_eq_cons d
      simp only [List.flatMap_cons, hescape, List.cons_append] at hbehind
      obtain ⟨rfl, -⟩ := List.cons.inj hbehind
      rcases hcases with rfl | hback
      · exact hearly ⟨a, b, rfl, ha⟩
      · exact absurd hback (by decide)

/-- **Of two texts set one after the other the last one counts, exactly if the first one is found
again**: the line has no text in its first element, or the first text has no less-than sign in it,
or it is set once more and does not end early. -/
theorem setTextContent_again_iff (line s u : Text) :
    setTextContent (setTextContent line s) u = setTextContent line u
      ↔ (∀ t x y, ¬IsFilled line t x y) ∨ '<' ∉ s ∨ (s = u ∧ ¬EndsEarly s) := by
  by_cases hline : ∀ t x y, ¬IsFilled line t x y
  · rw [setTextContent_of_not_isFilled hline]
    exact iff_of_true rfl (.inl hline)
  · push Not at hline
    obtain ⟨t, x, y, h⟩ := hline
    have hnot : ¬∀ t x y, ¬IsFilled line t x y := fun hnone => hnone t x y h
    rw [or_iff_right hnot]
    by_cases hs : '<' ∈ s
    · rw [or_iff_right (not_not.mpr hs)]
      by_cases hearly : EndsEarly s
      · obtain ⟨a, b, rfl, ha⟩ := hearly
        rw [setTextContent_again_of_endsEarly h ha, setTextContent_of_isFilled h]
        refine iff_of_false (fun heq => ?_) fun hboth => hboth.2 ⟨a, b, rfl, ha⟩
        have hlength := congrArg List.length heq
        simp [filled] at hlength
        omega
      · rw [setTextContent_again_of_mem h hs hearly, setTextContent_of_isFilled h,
          setTextContent_of_isFilled h, and_iff_left hearly, ← contentText_eq_iff hs]
        simp [filled]
    · exact iff_of_true (setTextContent_again_of_notMem h hs u) (.inl hs)

/-- Texts that are not found again: one stays, and of the other one something is left. -/
theorem setTextContent_again_ne :
    setTextContent "<p>x</p>".toList "a<b".toList = "<p>\x7b\"a<b\"\x7d</p>".toList
      ∧ setTextContent "<p>\x7b\"a<b\"\x7d</p>".toList "c".toList
        = "<p>\x7b\"a<b\"\x7d</p>".toList
      ∧ setTextContent "<p>x</p>".toList "a</b".toList = "<p>\x7b\"a</b\"\x7d</p>".toList
      ∧ setTextContent "<p>\x7b\"a</b\"\x7d</p>".toList "c".toList = "<p>c</b\"\x7d</p>".toList
      ∧ setTextContent "<p>x</p>".toList "c".toList = "<p>c</p>".toList
      ∧ ¬∀ line s u : Text,
        setTextContent (setTextContent line s) u = setTextContent line u := by
  refine ⟨by decide +kernel, by decide +kernel, by decide +kernel, by decide +kernel,
    by decide +kernel, fun hall => ?_⟩
  exact absurd (hall "<p>x</p>".toList "a<b".toList "c".toList) (by decide +kernel)

end CanvasSync.Line
