import CanvasSync.Json.Reader
import CanvasSync.Proofs.Json.Plain

/-!
What is written as JSON is read back.

* `readStringBody?_quoted`: the characters of a string, whatever follows its closing quote;
* `readNumber?_whole`: a whole number of 64 bits;
* `readValue?_text_append`: a plain value, with what may follow it in an array or an object;
* `parse?_text`: a whole text.
-/

namespace CanvasSync.Json

variable {rest : Text}

/-! ### Strings -/

lemma hexValue?_hexDigit : ∀ n < 16, hexValue? (hexDigit n) = some n := by decide

lemma hexDigit_mod (n : Nat) : hexDigit (n % 16) = hexDigit n := by
  rw [hexDigit, hexDigit, Nat.mod_mod]

/-- The four digits of a character below U+0020. -/
lemma readUnicode?_control {c : Char} (h : c.toNat < 0x20) :
    readUnicode? ('0' :: '0' :: hexDigit (c.toNat / 16) :: hexDigit c.toNat :: rest)
      = some (c, rest) := by
  have hhigh : hexValue? (hexDigit (c.toNat / 16)) = some (c.toNat / 16) :=
    hexValue?_hexDigit _ (by omega)
  have hlow : hexValue? (hexDigit c.toNat) = some (c.toNat % 16) := by
    rw [← hexDigit_mod]
    exact hexValue?_hexDigit _ (by omega)
  have hzero : hexValue? '0' = some 0 := by decide
  have hvalue : c.toNat / 16 * 16 + c.toNat % 16 = c.toNat := by omega
  have hread : readHex4? ('0' :: '0' :: hexDigit (c.toNat / 16) :: hexDigit c.toNat :: rest)
      = some (c.toNat, rest) := by
    simp [readHex4?, hzero, hhigh, hlow, hvalue]
  rw [readUnicode?, hread]
  simp only [Option.bind_eq_bind, Option.bind_some]
  rw [if_neg (by omega), if_neg (by omega), Char.ofNat_toNat]

/-- The characters that stand for one character of a string are read as that one. -/
lemma readStringBody?_escape (fuel : Nat) (c : Char) (t : Text) :
    readStringBody? (fuel + 1) (escape c ++ t)
      = (readStringBody? fuel t).map fun (s, r) => (c :: s, r) := by
  by_cases hspecial : c = '"' ∨ c = '\\' ∨ c = '\x08' ∨ c = '\x0c' ∨ c = '\n' ∨ c = '\r' ∨ c = '\t'
  · rcases hspecial with rfl | rfl | rfl | rfl | rfl | rfl | rfl <;>
      simp [escape, readStringBody?]
  · simp only [not_or] at hspecial
    obtain ⟨h1, h2, h3, h4, h5, h6, h7⟩ := hspecial
    by_cases hc : c.toNat < 0x20
    · simp [escape, h1, h2, h3, h4, h5, h6, h7, hc, readStringBody?, readUnicode?_control hc]
    · simp [escape, h1, h2, h3, h4, h5, h6, h7, hc, readStringBody?]

/-- The characters of a string are read back up to its closing quote. -/
lemma readStringBody?_quoted {fuel : Nat} {s : Text} (h : s.length < fuel) :
    readStringBody? fuel (s.flatMap escape ++ '"' :: rest) = some (s, rest) := by
  induction s generalizing fuel with
  | nil =>
      obtain ⟨n, rfl⟩ := Nat.exists_eq_add_of_lt h
      simp [readStringBody?]
  | cons c s ih =>
      obtain ⟨n, rfl⟩ := Nat.exists_eq_add_of_lt h
      rw [List.flatMap_cons, List.append_assoc, readStringBody?_escape, ih (by simp; omega)]
      rfl

lemma length_le_flatMap_escape (s : Text) : s.length ≤ (s.flatMap escape).length := by
  induction s with
  | nil => simp
  | cons c s ih =>
      have hc : 1 ≤ (escape c).length := by
        rw [escape]
        split_ifs <;> simp
      simp only [List.length_cons, List.flatMap_cons, List.length_append]
      omega

/-- A quoted string is read back from behind its opening quote. -/
lemma readStringBody?_quote (s : Text) :
    readStringBody? ((s.flatMap escape ++ '"' :: rest).length + 1)
      (s.flatMap escape ++ '"' :: rest) = some (s, rest) := by
  refine readStringBody?_quoted ?_
  have := length_le_flatMap_escape s
  simp only [List.length_append, List.length_cons]
  omega

/-! ### Whole numbers -/

/-- What may stand behind a value: nothing, a comma, or the end of what is around it. -/
def Follows (rest : Text) : Prop := ∀ c ∈ rest.head?, c = ',' ∨ c = ']' ∨ c = '\x7d'

/-- Digits are taken in as long as the number that they come to fits. -/
lemma takeDigits_append {ds : Text} {n : Nat} (hds : ∀ d ∈ ds, d.isDigit)
    (hfit : Nat.ofDigitChars 10 ds n ≤ maxWord) (hrest : Follows rest) :
    takeDigits n (ds ++ rest) = (Nat.ofDigitChars 10 ds n, ds.length, rest) := by
  induction ds generalizing n with
  | nil =>
      cases rest with
      | nil => rfl
      | cons c t =>
          have hc : c.isDigit = false := by
            rcases hrest c rfl with rfl | rfl | rfl <;> rfl
          simp [takeDigits, hc]
  | cons d ds ih =>
      rw [List.forall_mem_cons] at hds
      rw [Nat.ofDigitChars_cons] at hfit
      have hvalue : n * 10 + CanvasSync.Number.digitValue d = 10 * n + (d.toNat - '0'.toNat) := by
        rw [CanvasSync.Number.digitValue, Nat.mul_comm]
      have hstep : 10 * n + (d.toNat - '0'.toNat)
          ≤ Nat.ofDigitChars 10 ds (10 * n + (d.toNat - '0'.toNat)) := by
        rw [Nat.ofDigitChars_eq_ofDigitChars_zero]
        exact (Nat.le_mul_of_pos_left _ (Nat.pow_pos (by decide))).trans (Nat.le_add_right _ _)
      rw [List.cons_append, takeDigits, hvalue, if_pos ⟨hds.1, hstep.trans hfit⟩,
        ih hds.2 hfit, Nat.ofDigitChars_cons]
      rfl

/-- The digits of a natural have no zero before them. -/
lemma digitsOf_eq_cons {n : Nat} (hn : 0 < n) :
    ∃ d ds, CanvasSync.Number.digitsOf n = d :: ds ∧ d ≠ '0' := by
  induction n using Nat.strong_induction_on with
  | _ n ih =>
      rw [CanvasSync.Number.digitsOf]
      rcases Nat.lt_or_ge n 10 with hlt | hge
      · refine ⟨n.digitChar, [], Nat.toDigits_of_lt_base hlt, fun h => ?_⟩
        have hval : n.digitChar.toNat = 48 := congrArg Char.toNat h
        rw [Nat.toNat_digitChar_of_lt_ten hlt] at hval
        omega
      · obtain ⟨d, ds, hds, hd⟩ := ih (n / 10) (by omega) (by omega)
        rw [CanvasSync.Number.digitsOf] at hds
        exact ⟨d, ds ++ [(n % 10).digitChar],
          by rw [Nat.toDigits_of_base_le (by decide) hge, hds, List.cons_append], hd⟩

lemma isDigit_of_mem_digitsOf {n : Nat} {d : Char} (h : d ∈ CanvasSync.Number.digitsOf n) :
    d.isDigit :=
  Nat.isDigit_of_mem_toDigits (by decide) (by decide) h

/-- The digits of a natural that fits are read back. -/
lemma readNumber?_digitsOf {n : Nat} (negative : Bool) (hn : n ≤ maxWord) (hrest : Follows rest) :
    readNumber? negative (CanvasSync.Number.digitsOf n ++ rest)
      = some (readNumber?.wholeNumber negative n, rest) := by
  rcases Nat.eq_zero_or_pos n with rfl | hpos
  · rw [CanvasSync.Number.digitsOf, Nat.toDigits_zero]
    cases rest with
    | nil => rfl
    | cons c t => rcases hrest c rfl with rfl | rfl | rfl <;> rfl
  · obtain ⟨d, ds, hds, hd⟩ := digitsOf_eq_cons hpos
    have hdigit : d.isDigit := isDigit_of_mem_digitsOf (hds ▸ List.mem_cons_self ..)
    have hvalue : Nat.ofDigitChars 10 (CanvasSync.Number.digitsOf n) 0 = n :=
      Nat.ofDigitChars_ten_toDigits
    have htake : takeDigits 0 (d :: (ds ++ rest)) = (n, ds.length + 1, rest) := by
      have h := takeDigits_append (fun _ => isDigit_of_mem_digitsOf) (by rw [hvalue]; exact hn)
        hrest
      rw [hvalue, hds] at h
      exact h
    rw [hds, List.cons_append, readNumber?]
    cases rest with
    | nil =>
        rw [List.append_nil] at htake ⊢
        simp [hdigit, hd, htake]
    | cons c t => rcases hrest c rfl with rfl | rfl | rfl <;> simp [hdigit, hd, htake]

/-- A whole number of 64 bits is read back. -/
lemma readNumber?_whole {i : Int} (hlow : -0x8000000000000000 ≤ i)
    (hhigh : i < 0x10000000000000000) (hrest : Follows rest) :
    readNumber? (i < 0) (CanvasSync.Number.digitsOf i.natAbs ++ rest)
      = some (.whole i, rest) := by
  have hfit : i.natAbs ≤ maxWord := by
    rw [maxWord]
    omega
  rw [readNumber?_digitsOf _ hfit hrest, readNumber?.wholeNumber]
  by_cases hi : i < 0
  · have hvalue : -(i.natAbs : Int) = i := by omega
    rw [if_neg (by simpa using hi), if_neg (by omega), hvalue]
  · have hvalue : (i.natAbs : Int) = i := by omega
    rw [if_pos (by simpa using hi), hvalue]

/-! ### Values -/

lemma skipSpace_cons {c : Char} {t : Text} (h : isSpace c = false) : skipSpace (c :: t) = c :: t := by
  simp [skipSpace, h]

/-- The characters that a plain value begins with. -/
def startsValue (c : Char) : Bool :=
  c.isDigit || c = '-' || c = '"' || c = '[' || c = '\x7b' || c = 'n' || c = 't' || c = 'f'

lemma exists_text_eq_cons {v : Value} (h : v.isPlain) :
    ∃ c t, v.text = c :: t ∧ startsValue c := by
  cases v with
  | null | string => exact ⟨_, _, rfl, by decide⟩
  | bool b => cases b <;> exact ⟨_, _, rfl, by decide⟩
  | array items | object items => exact ⟨_, _, rfl, by decide⟩
  | number n =>
      cases n with
      | double x => simp [Value.isPlain] at h
      | whole i =>
          rw [Value.text, Number.text]
          by_cases hi : i < 0
          · exact ⟨_, _, if_pos hi, by decide⟩
          · rw [if_neg hi]
            cases hds : CanvasSync.Number.digitsOf i.natAbs with
            | nil => exact absurd hds Nat.toDigits_ne_nil
            | cons d ds =>
                have hd : d.isDigit := isDigit_of_mem_digitsOf (hds ▸ List.mem_cons_self ..)
                exact ⟨d, ds, rfl, by simp [startsValue, hd]⟩

lemma isSpace_of_startsValue {c : Char} (h : startsValue c) : isSpace c = false := by
  by_contra hs
  simp only [isSpace, Bool.not_eq_false, Bool.or_eq_true, decide_eq_true_eq] at hs
  rcases hs with ((rfl | rfl) | rfl) | rfl <;> exact absurd h (by decide)

/-- No blanks are passed over before a plain value. -/
lemma skipSpace_text_append {v : Value} (h : v.isPlain) (rest : Text) :
    skipSpace (v.text ++ rest) = v.text ++ rest := by
  obtain ⟨c, t, ht, hc⟩ := exists_text_eq_cons h
  rw [ht, List.cons_append, skipSpace_cons (isSpace_of_startsValue hc)]

/-- A whole number is read back as a value. -/
lemma readValue?_number {i : Int} (h : (Value.number (.whole i)).isPlain) (hrest : Follows rest)
    (fuel depth : Nat) :
    readValue? (fuel + 1) depth ((Value.number (.whole i)).text ++ rest)
      = some (.number (.whole i), rest) := by
  rw [readValue?, skipSpace_text_append h]
  simp only [Value.isPlain, Bool.and_eq_true, decide_eq_true_eq] at h
  have hread := readNumber?_whole h.1 h.2 hrest
  rw [Value.text, Number.text]
  by_cases hi : i < 0
  · rw [if_pos hi]
    simp only [hi, decide_true] at hread
    simp [hread]
  · rw [if_neg hi]
    simp only [hi, decide_false] at hread
    cases hds : CanvasSync.Number.digitsOf i.natAbs with
    | nil => exact absurd hds Nat.toDigits_ne_nil
    | cons d ds =>
        have hd : d.isDigit := isDigit_of_mem_digitsOf (hds ▸ List.mem_cons_self ..)
        rw [hds] at hread
        rw [List.cons_append] at hread ⊢
        split <;> simp_all

lemma Follows.of_comma (t : Text) : Follows (',' :: t) := by simp [Follows]

lemma Follows.of_bracket (t : Text) : Follows (']' :: t) := by simp [Follows]

lemma Follows.of_brace (t : Text) : Follows ('\x7d' :: t) := by simp [Follows]

/-- A value is read back by fuel that covers its text, whatever may follow it. -/
def ReadsBack (v : Value) : Prop :=
  ∀ (fuel depth : Nat) (rest : Text), v.text.length ≤ fuel → v.depth ≤ depth → Follows rest →
    readValue? fuel depth (v.text ++ rest) = some (v, rest)

/-- Items are read back up to the bracket behind them. -/
lemma readItems?_text {v : Value} {vs : List Value} {fuel depth : Nat}
    (hdepth : ∀ w ∈ v :: vs, w.depth ≤ depth) (hread : ∀ w ∈ v :: vs, ReadsBack w)
    (hfuel : (v.text ++ vs.flatMap fun w => ',' :: w.text).length < fuel) :
    readItems? fuel depth (v.text ++ (vs.flatMap fun w => ',' :: w.text) ++ ']' :: rest)
      = some (v :: vs, rest) := by
  induction vs generalizing v fuel with
  | nil =>
      simp only [List.flatMap_nil, List.append_nil, List.mem_singleton, forall_eq] at *
      cases fuel with
      | zero => omega
      | succ n =>
          rw [readItems?, hread n depth _ (by omega) hdepth (.of_bracket rest)]
          simp [skipSpace_cons, isSpace]
  | cons w ws ih =>
      rw [List.forall_mem_cons] at hdepth hread
      simp only [List.flatMap_cons, List.cons_append, List.length_append, List.length_cons] at hfuel
      cases fuel with
      | zero => omega
      | succ n =>
          have hrest : readItems? n depth _ = _ :=
            ih hdepth.2 hread.2 (by rw [List.length_append]; omega)
          rw [readItems?, List.append_assoc, List.flatMap_cons, List.cons_append, List.cons_append,
            hread.1 n depth _ (by omega) hdepth.1 (.of_comma _)]
          simp only
          rw [skipSpace_cons (by decide)]
          simp only [hrest, Option.map_some]

/-- A member is read back, and then what follows it. -/
lemma readMembers?_memberText {m : String × Value} {n depth : Nat} {t : Text}
    (hread : readValue? n depth (m.2.text ++ t) = some (m.2, t)) :
    readMembers? (n + 1) depth (memberText m ++ t)
      = match skipSpace t with
        | '\x7d' :: r => some ([m], r)
        | ',' :: r => (readMembers? n depth r).map fun (ms, r) => (m :: ms, r)
        | _ => none := by
  simp only [readMembers?, memberText, quote, List.cons_append, List.append_assoc,
    List.nil_append]
  rw [skipSpace_cons (by decide)]
  simp only [readStringBody?_quote]
  rw [skipSpace_cons (by decide)]
  simp only [hread]
  generalize hkey : String.ofList m.1.toList = key
  obtain rfl : m.1 = key := String.ofList_toList.symm.trans hkey
  -- the two sides match in the same way
  rfl

/-- Members are read back up to the brace behind them. -/
lemma readMembers?_text {m : String × Value} {ms : List (String × Value)} {fuel depth : Nat}
    (hdepth : ∀ w ∈ m :: ms, w.2.depth ≤ depth) (hread : ∀ w ∈ m :: ms, ReadsBack w.2)
    (hfuel : (memberText m ++ ms.flatMap fun n => ',' :: memberText n).length < fuel) :
    readMembers? fuel depth (memberText m ++ (ms.flatMap fun n => ',' :: memberText n)
      ++ '\x7d' :: rest) = some (m :: ms, rest) := by
  have hlength (m : String × Value) : m.2.text.length < (memberText m).length := by
    simp only [memberText, List.length_append, List.length_cons]
    omega
  induction ms generalizing m fuel with
  | nil =>
      simp only [List.flatMap_nil, List.append_nil, List.mem_singleton, forall_eq] at *
      have hm := hlength m
      cases fuel with
      | zero => omega
      | succ n =>
          rw [readMembers?_memberText (hread n depth _ (by omega) hdepth (.of_brace rest)),
            skipSpace_cons (by decide)]
          rfl
  | cons w ws ih =>
      have hm := hlength m
      rw [List.forall_mem_cons] at hdepth hread
      simp only [List.flatMap_cons, List.cons_append, List.length_append, List.length_cons] at hfuel
      cases fuel with
      | zero => omega
      | succ n =>
          have hrest : readMembers? n depth _ = _ :=
            ih hdepth.2 hread.2 (by rw [List.length_append]; omega)
          rw [List.append_assoc, List.flatMap_cons, List.cons_append, List.cons_append,
            readMembers?_memberText (hread.1 n depth _ (by omega) hdepth.1 (.of_comma _)),
            skipSpace_cons (by decide)]
          simp only [hrest, Option.map_some]

/-- A plain value is read back if it is by any fuel, as its text is not empty. -/
lemma readsBack_of_succ {v : Value} (h : v.isPlain)
    (hread : ∀ (n depth : Nat) (rest : Text), v.text.length ≤ n + 1 → v.depth ≤ depth →
      Follows rest → readValue? (n + 1) depth (v.text ++ rest) = some (v, rest)) :
    ReadsBack v := by
  intro fuel depth rest hfuel hdepth hrest
  obtain ⟨c, t, ht, -⟩ := exists_text_eq_cons h
  cases fuel with
  | zero => simp [ht] at hfuel
  | succ n => exact hread n depth rest hfuel hdepth hrest

lemma readsBack_string (s : String) : ReadsBack (.string s) := by
  refine readsBack_of_succ (by simp [Value.isPlain]) fun n depth rest _ _ _ => ?_
  simp only [Value.text, quote, List.cons_append, List.append_assoc, List.nil_append, readValue?]
  rw [skipSpace_cons (by decide)]
  simp only [readStringBody?_quote, Option.map_some, String.ofList_toList]

/-- An array is read back if its items are. -/
lemma readsBack_array {items : List Value} (h : (Value.array items).isPlain)
    (hread : ∀ v ∈ items, ReadsBack v) : ReadsBack (.array items) := by
  refine readsBack_of_succ h fun n depth rest hfuel hdepth _ => ?_
  rw [Value.isPlain, Value.arePlain_iff] at h
  have hpos : depth ≠ 0 := by
    rw [Value.depth] at hdepth
    omega
  cases items with
  | nil => simp [readValue?, Value.text, itemsText, skipSpace_cons, isSpace, hpos]
  | cons v vs =>
      have hitems : readItems? n (depth - 1) _ = some (v :: vs, rest) :=
        readItems?_text
          (fun w hw => Nat.le_sub_one_of_lt ((Value.depth_lt_array hw).trans_le hdepth)) hread
          (by simp [text_array_cons] at hfuel ⊢; omega)
      have hv := h v (List.mem_cons_self ..)
      obtain ⟨c, t, ht, hc⟩ := exists_text_eq_cons hv
      have hbracket : c ≠ ']' := by
        rintro rfl
        exact absurd hc (by decide)
      rw [text_array_cons, List.cons_append, readValue?, skipSpace_cons (by decide)]
      simp only [hpos, if_false, List.append_assoc, skipSpace_text_append hv,
        List.singleton_append] at hitems ⊢
      rw [ht, List.cons_append] at hitems ⊢
      split
      · simp_all
      · rw [hitems]
        rfl

/-- An object is read back if the values of its members are. -/
lemma readsBack_object {members : List (String × Value)} (h : (Value.object members).isPlain)
    (hread : ∀ m ∈ members, ReadsBack m.2) : ReadsBack (.object members) := by
  refine readsBack_of_succ h fun n depth rest hfuel hdepth _ => ?_
  have hpos : depth ≠ 0 := by
    rw [Value.depth] at hdepth
    omega
  cases members with
  | nil => simp [readValue?, Value.text, membersText, skipSpace_cons, isSpace, hpos]
  | cons m ms =>
      have hmembers : readMembers? n (depth - 1) _ = some (m :: ms, rest) :=
        readMembers?_text
          (fun w hw => Nat.le_sub_one_of_lt ((Value.depth_lt_object hw).trans_le hdepth)) hread
          (by simp [text_object_cons] at hfuel ⊢; omega)
      rw [text_object_cons, List.cons_append, readValue?, skipSpace_cons (by decide)]
      simp only [memberText, quote, hpos, if_false, List.append_assoc, List.cons_append,
        List.nil_append] at hmembers ⊢
      rw [skipSpace_cons (by decide)]
      exact congrArg (Option.map fun r => (Value.object r.1, r.2)) hmembers

/-- **A plain value is read back** from its text, whatever follows it in an array or an object. -/
lemma readValue?_text_append {v : Value} (h : v.isPlain) : ReadsBack v := by
  induction v using valueInduction with
  | null => exact readsBack_of_succ h fun _ _ _ _ _ _ => rfl
  | bool b => cases b <;> exact readsBack_of_succ h fun _ _ _ _ _ _ => rfl
  | number n =>
      cases n with
      | double x => simp [Value.isPlain] at h
      | whole i => exact readsBack_of_succ h fun n depth _ _ _ hrest =>
          readValue?_number h hrest n depth
  | string s => exact readsBack_string s
  | array items ih =>
      have hplain := h
      rw [Value.isPlain, Value.arePlain_iff] at hplain
      exact readsBack_array h fun v hv => ih v hv (hplain v hv)
  | object members ih =>
      have hplain := h
      rw [Value.isPlain, Bool.and_eq_true, Value.membersArePlain_iff] at hplain
      exact readsBack_object h fun m hm => ih m hm (hplain.2 m hm)

/-- **A plain value whose arrays and objects nest no deeper than the reader goes is read back from
its text.** -/
lemma parse?_text {v : Value} (h : v.isPlain) (hdepth : v.depth ≤ depthLimit) :
    parse? v.text = some v := by
  have hread := readValue?_text_append h (v.text.length + 1) depthLimit [] (Nat.le_succ _) hdepth
    (by simp [Follows])
  rw [List.append_nil] at hread
  rw [parse?, read?, hread]
  simp [skipSpace, Value.sorted_eq_self h]

end CanvasSync.Json
