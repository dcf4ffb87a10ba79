import CanvasSync.Line.Tag
import CanvasSync.Proofs.Text.Cuts
import CanvasSync.Proofs.Text.Solid

/-!
The scans of a line for its first opening tag, and of this tag for an attribute.

* `scan`: the quote and the braces that are open behind a text, which the end of a tag depends on;
* `IsLevel`: texts that leave nothing open, and do not end a tag;
* `splitStart?_append`, `splitEnd?_append`: a tag begins and ends behind such texts;
* `split?_eq_some_iff`: the line around its first opening tag;
* `attributeFrom?`: the search for an attribute character by character, and `findAttribute?_eq`;
* `isSilent`: texts in which no attribute of a name is found;
* `attributeFrom?_append`: the search goes on behind them.
-/

namespace CanvasSync.Line.Tag

variable {t u v name after head body : Text} {c : Char}

/-! ### The beginning of a tag -/

lemma splitStart?_tag (hc : c.isAlpha) (t : Text) :
    splitStart? ('<' :: c :: t) = some ([], '<' :: c :: t) := by
  rw [splitStart?, if_pos hc]

lemma splitStart?_cons (h : ¬(c = '<' ∧ t.head?.any Char.isAlpha)) :
    splitStart? (c :: t) = (splitStart? t).map fun (b, a) => (c :: b, a) := by
  by_cases hc : c = '<'
  · subst hc
    cases t with
    | nil => rfl
    | cons d t =>
        have hd : ¬d.isAlpha := fun hd => h ⟨rfl, hd⟩
        rw [splitStart?, if_neg hd]
  · rw [splitStart?]
    exact fun _ _ hless => absurd hless hc

/-- A tag begins behind what no tag begins in. -/
lemma splitStart?_append (ht : splitStart? t = none) (hc : c.isAlpha) (u : Text) :
    splitStart? (t ++ '<' :: c :: u) = some (t, '<' :: c :: u) := by
  induction t with
  | nil => exact splitStart?_tag hc u
  | cons d t ih =>
      have hd : ¬(d = '<' ∧ t.head?.any Char.isAlpha) := by
        rintro ⟨rfl, halpha⟩
        cases t with
        | nil => cases halpha
        | cons e t =>
            rw [splitStart?_tag halpha] at ht
            cases ht
      have hd' : ¬(d = '<' ∧ (t ++ '<' :: c :: u).head?.any Char.isAlpha) := by
        rintro ⟨rfl, halpha⟩
        cases t with
        | nil => exact absurd (show '<'.isAlpha from halpha) (by decide)
        | cons e t => exact hd ⟨rfl, halpha⟩
      rw [splitStart?_cons hd, Option.map_eq_none_iff] at ht
      rw [List.cons_append, splitStart?_cons hd', ih ht]
      rfl

/-! ### The end of a tag -/

/-- The quote and the number of braces that are open behind a text; nothing if a tag ends in it. -/
def scan : Option Char → Nat → Text → Option (Option Char × Nat)
  | quote, depth, [] => some (quote, depth)
  | some q, depth, c :: t => scan (if c = q then none else some q) depth t
  | none, depth, c :: t =>
    if c = '>' ∧ depth = 0 then none
    else if c = '"' ∨ c = '\'' ∨ c = '\x60' then scan (some c) depth t
    else if c = '\x7b' then scan none (depth + 1) t
    else if c = '\x7d' then scan none (depth - 1) t
    else scan none depth t

/-- Whether a text leaves no quote and no brace open, and no tag ends in it. -/
def IsLevel (t : Text) : Prop := scan none 0 t = some (none, 0)

instance (t : Text) : Decidable (IsLevel t) := inferInstanceAs (Decidable (_ = _))

lemma scan_append (quote : Option Char) (depth : Nat) (t u : Text) :
    scan quote depth (t ++ u) = (scan quote depth t).bind fun s => scan s.1 s.2 u := by
  induction t generalizing quote depth with
  | nil => cases quote <;> rfl
  | cons c t ih =>
      cases quote with
      | some q => exact ih _ _
      | none =>
          rw [List.cons_append, scan, scan]
          split_ifs <;> first | rfl | exact ih _ _

/-- A tag ends behind a text where it ends behind what the text leaves open. -/
lemma splitEnd?_append {quote : Option Char} {depth : Nat} {s : Option Char × Nat}
    (h : scan quote depth t = some s) (u : Text) :
    splitEnd? quote depth (t ++ u) = (splitEnd? s.1 s.2 u).map fun (b, a) => (t ++ b, a) := by
  induction t generalizing quote depth with
  | nil =>
      obtain rfl : (quote, depth) = s := by cases quote <;> exact Option.some.inj h
      simp
  | cons c t ih =>
      have hcons {quote : Option Char} {depth : Nat} (h : scan quote depth t = some s) :
          ((splitEnd? quote depth (t ++ u)).map fun (b, a) => (c :: b, a))
            = (splitEnd? s.1 s.2 u).map fun (b, a) => (c :: t ++ b, a) := by
        rw [ih h, Option.map_map]
        rfl
      cases quote with
      | some q => exact hcons h
      | none =>
          rw [scan] at h
          rw [List.cons_append, splitEnd?]
          split_ifs at h ⊢ with hend hquote hopen hclose <;> exact hcons h

lemma isLevel_append (ht : IsLevel t) (hu : IsLevel u) : IsLevel (t ++ u) := by
  rw [IsLevel, scan_append, ht]
  exact hu

/-- A tag ends behind a level text. -/
lemma splitEnd?_of_isLevel (ht : IsLevel t) (u : Text) :
    splitEnd? none 0 (t ++ '>' :: u) = some (t, '>' :: u) := by
  rw [splitEnd?_append ht, splitEnd?, if_pos ⟨rfl, rfl⟩]
  simp

/-- Whether a character means something to the scan for the end of a tag. -/
def isTelling (c : Char) : Bool :=
  c = '>' || c = '"' || c = '\'' || c = '\x60' || c = '\x7b' || c = '\x7d'

lemma isLevel_of_forall (h : ∀ c ∈ t, isTelling c = false) : IsLevel t := by
  induction t with
  | nil => rfl
  | cons c t ih =>
      rw [List.forall_mem_cons] at h
      have hc := h.1
      simp only [isTelling, Bool.or_eq_false_iff, decide_eq_false_iff_not] at hc
      obtain ⟨⟨⟨⟨⟨hend, hdouble⟩, hsingle⟩, hback⟩, hopen⟩, hclose⟩ := hc
      rw [IsLevel, scan, if_neg fun h => hend h.1, if_neg (by simp [hdouble, hsingle, hback]),
        if_neg hopen, if_neg hclose]
      exact ih h.2

lemma scan_of_notMem {q : Char} (h : q ∉ t) (depth : Nat) :
    scan (some q) depth t = some (some q, depth) := by
  induction t with
  | nil => rfl
  | cons c t ih =>
      rw [List.mem_cons, not_or] at h
      rw [scan, if_neg (Ne.symm h.1), ih h.2]

/-- A string in quotes is level. -/
lemma isLevel_quoted {q : Char} (hq : q = '"' ∨ q = '\'') (h : q ∉ t) :
    IsLevel (q :: (t ++ [q])) := by
  have hquote : q = '"' ∨ q = '\'' ∨ q = '\x60' := by
    rcases hq with rfl | rfl <;> simp
  have hend : ¬(q = '>' ∧ (0 : Nat) = 0) := by
    rcases hq with rfl | rfl <;> decide
  rw [IsLevel, scan, if_neg hend, if_pos hquote, scan_append, scan_of_notMem h, Option.bind_some,
    scan, if_pos rfl]
  rfl

/-! ### The line around its first opening tag -/

/-- A tag is found behind what no tag begins in, and begins with a letter. -/
lemma exists_of_splitStart? {before rest : Text} (h : splitStart? t = some (before, rest)) :
    t = before ++ rest ∧ splitStart? before = none ∧ ∃ c u, rest = '<' :: c :: u ∧ c.isAlpha := by
  induction t generalizing before with
  | nil => cases h
  | cons c t ih =>
      by_cases hbegins : c = '<' ∧ t.head?.any Char.isAlpha
      · obtain ⟨rfl, halpha⟩ := hbegins
        obtain ⟨d, hd, halpha⟩ := Option.any_eq_true _ _ |>.mp halpha
        obtain ⟨u, rfl⟩ := List.head?_eq_some_iff.mp hd
        rw [splitStart?_tag halpha] at h
        obtain ⟨rfl, rfl⟩ := Prod.mk.inj (Option.some.inj h)
        exact ⟨rfl, rfl, d, u, rfl, halpha⟩
      · rw [splitStart?_cons hbegins] at h
        obtain ⟨⟨b, a⟩, hsplit, heq⟩ := Option.map_eq_some_iff.mp h
        obtain ⟨rfl, rfl⟩ := Prod.mk.inj heq
        obtain ⟨rfl, hnone, d, u, rfl, halpha⟩ := ih hsplit
        refine ⟨rfl, ?_, d, u, rfl, halpha⟩
        rw [splitStart?_cons, hnone]
        · rfl
        · -- what begins with a letter behind `c` would begin with it in the text
          rintro ⟨rfl, hletter⟩
          cases b with
          | nil => cases hletter
          | cons e b => exact hbegins ⟨rfl, hletter⟩

/-- A tag ends behind a text that leaves nothing open. -/
lemma exists_of_splitEnd? {quote : Option Char} {depth : Nat} {b a : Text}
    (h : splitEnd? quote depth t = some (b, a)) :
    t = b ++ a ∧ scan quote depth b = some (none, 0) ∧ ∃ u, a = '>' :: u := by
  induction t generalizing quote depth b with
  | nil => cases quote <;> cases h
  | cons c t ih =>
      have hcons {quote : Option Char} {depth : Nat}
          (h : ((splitEnd? quote depth t).map fun (b, a) => (c :: b, a)) = some (b, a)) :
          ∃ b', b = c :: b' ∧ t = b' ++ a ∧ scan quote depth b' = some (none, 0)
            ∧ ∃ u, a = '>' :: u := by
        obtain ⟨⟨b', a'⟩, hsplit, heq⟩ := Option.map_eq_some_iff.mp h
        obtain ⟨rfl, rfl⟩ := Prod.mk.inj heq
        exact ⟨b', rfl, ih hsplit⟩
      cases quote with
      | some q =>
          obtain ⟨b', rfl, rfl, hscan, hu⟩ := hcons h
          exact ⟨rfl, hscan, hu⟩
      | none =>
          rw [splitEnd?] at h
          split_ifs at h with hend hquote hopen hclose
          · obtain ⟨rfl, rfl⟩ := Prod.mk.inj (Option.some.inj h)
            exact ⟨rfl, by rw [hend.2]; rfl, t, by rw [hend.1]⟩
          all_goals
            obtain ⟨b', rfl, rfl, hscan, hu⟩ := hcons h
            refine ⟨rfl, ?_, hu⟩
            rw [scan, if_neg hend]
          · rwa [if_pos hquote]
          · rwa [if_neg hquote, if_pos hopen]
          · rwa [if_neg hquote, if_neg hopen, if_pos hclose]
          · rwa [if_neg hquote, if_neg hopen, if_neg hclose]

/-- **The first opening tag of a line**: a less-than sign with a letter behind it, the first one on
the line, then what leaves nothing open, up to a greater-than sign. -/
theorem split?_eq_some_iff {line : Text} {t : Tag} : split? line = some t
    ↔ line = t.before ++ (t.body ++ t.after) ∧ splitStart? t.before = none
      ∧ (∃ c u, t.body = '<' :: c :: u ∧ c.isAlpha ∧ IsLevel (c :: u))
      ∧ ∃ post, t.after = '>' :: post := by
  constructor
  · intro h
    simp only [split?, Option.bind_eq_bind, Option.pure_def, Option.bind_eq_some_iff] at h
    obtain ⟨⟨before, rest⟩, hstart, ⟨b, a⟩, hend, heq⟩ := h
    obtain rfl := Option.some.inj heq
    obtain ⟨rfl, hnone, c, u, rfl, halpha⟩ := exists_of_splitStart? hstart
    obtain ⟨htext, hlevel, post, rfl⟩ := exists_of_splitEnd? hend
    cases b with
    | nil =>
        obtain ⟨rfl, -⟩ := List.cons.inj htext
        exact absurd halpha (by decide)
    | cons d b =>
        obtain ⟨rfl, rfl⟩ := List.cons.inj htext
        exact ⟨rfl, hnone, ⟨c, b, rfl, halpha, hlevel⟩, post, rfl⟩
  · obtain ⟨before, body, after⟩ := t
    rintro ⟨rfl, hnone, ⟨c, u, rfl, halpha, hlevel⟩, post, rfl⟩
    simp only [split?, List.cons_append, splitStart?_append hnone halpha, Option.bind_eq_bind,
      Option.bind_some, List.drop_succ_cons, List.drop_zero, Option.pure_def]
    rw [← List.cons_append, splitEnd?_of_isLevel hlevel]
    rfl

/-! ### Attributes of a tag -/

/-- Whether a character may stand behind the name of an attribute. -/
def endsName (c : Char) : Bool := c = '=' || isBlank c || c = '/' || c = '>'

/-- The search for an attribute in what is left of a tag, character by character. -/
def attributeFrom? (name after : Text) : Text → Text → Option (Text × Text)
  | _, [] => none
  | head, c :: t =>
    match Text.strip? name (c :: t) with
    | none => attributeFrom? name after (head ++ [c]) t
    | some rest =>
      match judge head (rest ++ after) with
      | .here around => around
      | .further => attributeFrom? name after (head ++ [c]) t

/-- No attribute stands where there is no blank before its name, or where the name goes on. -/
lemma judge_eq_further {tail : Text}
    (h : head.getLast?.any isBlank = false ∨ tail.head?.any endsName = false) :
    judge head tail = .further := by
  unfold judge
  by_cases hblank : head.getLast?.any isBlank = true
  · have htail := h.resolve_left (by rw [hblank]; simp)
    rw [if_pos hblank]
    cases tail with
    | nil => rfl
    | cons c tail =>
        simp only [List.head?_cons, Option.any_some, endsName, Bool.or_eq_false_iff,
          decide_eq_false_iff_not] at htail
        obtain ⟨⟨⟨hequals, hnot⟩, hslash⟩, hend⟩ := htail
        simp [hnot, hslash, hend]
  · rw [if_neg hblank]

lemma attributeFrom?_of_further (h : ∀ rest, Text.strip? name (c :: t) = some rest →
    judge head (rest ++ after) = .further) :
    attributeFrom? name after head (c :: t) = attributeFrom? name after (head ++ [c]) t := by
  rw [attributeFrom?]
  split
  · rfl
  · next rest hrest => rw [h rest hrest]

lemma getLast?_any_append_singleton (head : Text) (c : Char) :
    (head ++ [c]).getLast?.any isBlank = isBlank c := by
  simp

/-- No attribute is found within what is not blank. -/
lemma attributeFrom?_solid (hhead : head.getLast?.any isBlank = false)
    (ht : ∀ c ∈ t, isBlank c = false) (u : Text) :
    attributeFrom? name after head (t ++ u) = attributeFrom? name after (head ++ t) u := by
  induction t generalizing head with
  | nil => simp
  | cons c t ih =>
      rw [List.forall_mem_cons] at ht
      have hlast : (head ++ [c]).getLast?.any isBlank = false := by
        rw [getLast?_any_append_singleton]
        exact ht.1
      rw [List.cons_append, attributeFrom?_of_further fun _ _ => judge_eq_further (.inl hhead),
        ih hlast ht.2, List.append_assoc, List.singleton_append]

/-- The search goes on at the first occurrence of the name. -/
lemma attributeFrom?_of_cut? {skipped rest : Text} (hsolid : ∀ c ∈ name, isBlank c = false)
    (hname : name ≠ []) (h : Text.cut? name body = some (skipped, rest)) :
    attributeFrom? name after head body = match judge (head ++ skipped) (rest ++ after) with
      | .here around => around
      | .further => attributeFrom? name after (head ++ skipped ++ name) rest := by
  induction body generalizing head skipped with
  | nil =>
      rw [Text.cut?, if_neg hname] at h
      cases h
  | cons c t ih =>
      rw [Text.cut?] at h
      cases hstrip : Text.strip? name (c :: t) with
      | none =>
          rw [hstrip] at h
          obtain ⟨⟨skipped', rest'⟩, hcut, heq⟩ := Option.map_eq_some_iff.mp h
          obtain ⟨rfl, rfl⟩ := Prod.mk.inj heq
          rw [attributeFrom?, hstrip]
          simp only
          rw [ih hcut, List.append_assoc, List.singleton_append]
      | some rest' =>
          rw [hstrip] at h
          obtain ⟨rfl, rfl⟩ := Prod.mk.inj (Option.some.inj h)
          rw [List.append_nil, attributeFrom?, hstrip]
          simp only
          split
          · rfl
          · -- behind the first character of the name there is no blank before what is left of it
            obtain ⟨d, name', rfl⟩ := List.exists_cons_of_ne_nil hname
            have htext := Text.eq_of_strip? hstrip
            rw [List.cons_append] at htext
            obtain ⟨rfl, rfl⟩ := List.cons.inj htext
            rw [List.forall_mem_cons] at hsolid
            have hlast : (head ++ [c]).getLast?.any isBlank = false := by
              rw [getLast?_any_append_singleton]
              exact hsolid.1
            rw [attributeFrom?_solid hlast hsolid.2, List.append_assoc, List.singleton_append]

lemma attributeFrom?_of_cut?_eq_none (h : Text.cut? name body = none) :
    attributeFrom? name after head body = none := by
  induction body generalizing head with
  | nil => rfl
  | cons c t ih =>
      rw [Text.cut?] at h
      cases hstrip : Text.strip? name (c :: t) with
      | none =>
          rw [hstrip] at h
          rw [attributeFrom?, hstrip]
          exact ih (Option.map_eq_none_iff.mp h)
      | some rest =>
          rw [hstrip] at h
          cases h

/-- **The search for an attribute is the search character by character**: it ends, and nothing is
missed by going on behind the name. -/
theorem findAttribute?_eq (hsolid : ∀ c ∈ name, isBlank c = false) (hname : name ≠ []) (t : Tag) :
    t.findAttribute? name = some (attributeFrom? name t.after t.before t.body) := by
  induction hlength : t.body.length using Nat.strongRecOn generalizing t with
  | _ n ih =>
      rw [findAttribute?, searchStep]
      cases hcut : Text.cut? name t.body with
      | none => rw [attributeFrom?_of_cut?_eq_none hcut]
      | some split =>
          obtain ⟨skipped, rest⟩ := split
          rw [attributeFrom?_of_cut? hsolid hname hcut]
          cases hjudge : judge (t.before ++ skipped) (rest ++ t.after) with
          | here around => simp [hjudge]
          | further =>
              have hshorter := congrArg List.length (Text.eq_of_cut? hcut)
              have hpos := List.length_pos_iff.mpr hname
              simp only [List.length_append] at hshorter
              simp only [hjudge]
              exact ih rest.length (by omega) _ rfl

/-- Whether no attribute of a name is found in a text, a blank standing before it or not. -/
def isSilent (name : Text) : (blank : Bool) → Text → Bool
  | _, [] => true
  | blank, c :: t =>
    !(blank && (Text.strip? name (c :: t)).any fun rest => rest.head?.all endsName)
      && isSilent name (isBlank c) t

lemma isSilent_cons {blank : Bool} (h : isSilent name blank (c :: t)) :
    (blank → ∀ rest, Text.strip? name (c :: t) = some rest → rest.head?.any endsName = false
      ∧ rest ≠ []) ∧ isSilent name (isBlank c) t := by
  rw [isSilent, Bool.and_eq_true] at h
  refine ⟨fun hblank rest hrest => ?_, h.2⟩
  have hhead := h.1
  rw [hblank, hrest] at hhead
  cases rest with
  | nil => simp at hhead
  | cons d rest => simpa using hhead

/-- The search goes on behind a text that is silent, and whose end is not within a name. -/
lemma attributeFrom?_append (h : isSilent name (head.getLast?.any isBlank) t)
    (hu : ∀ c ∈ u.head?, c ∉ name) :
    attributeFrom? name after head (t ++ u) = attributeFrom? name after (head ++ t) u := by
  induction t generalizing head with
  | nil => simp
  | cons c t ih =>
      obtain ⟨hfirst, hrest⟩ := isSilent_cons h
      have hfurther (rest : Text) (hstrip : Text.strip? name (c :: (t ++ u)) = some rest) :
          judge head (rest ++ after) = .further := by
        by_cases hblank : head.getLast?.any isBlank = true
        · refine judge_eq_further (.inr ?_)
          have htext := Text.eq_of_strip? hstrip
          rw [← List.cons_append] at htext
          rcases List.append_eq_append_iff.mp htext with ⟨x, hx, hu'⟩ | ⟨x, hx, hrest'⟩
          · -- the name would go on behind the text
            cases x with
            | nil =>
                rw [List.append_nil] at hx
                have hstrip' : Text.strip? name (c :: t) = some [] :=
                  Text.strip?_eq_some_iff.mpr (by rw [hx, List.append_nil])
                exact absurd rfl (hfirst hblank [] hstrip').2
            | cons d x =>
                refine absurd ?_ (hu d (by rw [hu']; rfl))
                rw [hx]
                simp
          · have hstrip' : Text.strip? name (c :: t) = some x := Text.strip?_eq_some_iff.mpr hx
            obtain ⟨hany, hne⟩ := hfirst hblank x hstrip'
            obtain ⟨d, x', rfl⟩ := List.exists_cons_of_ne_nil hne
            rw [hrest']
            exact hany
        · exact judge_eq_further (.inl (by simpa using hblank))
      have hlast : (head ++ [c]).getLast?.any isBlank = isBlank c :=
        getLast?_any_append_singleton head c
      rw [List.cons_append, attributeFrom?_of_further hfurther, ih (by rw [hlast]; exact hrest),
        List.append_assoc, List.singleton_append]

end CanvasSync.Line.Tag
