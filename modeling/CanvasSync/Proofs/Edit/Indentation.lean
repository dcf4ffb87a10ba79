import CanvasSync.Edit.Splice
import CanvasSync.Proofs.Edit.Lines
import CanvasSync.Proofs.Json.Characters
import CanvasSync.Proofs.Markup.Frames
import CanvasSync.Proofs.Markup.Writing

/-!
Markup that is indented line by line.

* `reindent`: a text with an indent behind its line feeds;
* `indentBlock_eq`: an indented block is this text behind an indent;
* `reindent_of_isOneLine`: texts without line ends stay as they are;
* `append_reindent_eq_append_iff`: texts with line feeds do not;
* `Passage.reindented`: a content with each of its texts and attributes in strings reindented;
* `written_reindented`, `indentBlock_render`: the indented markup of a component is written by its
  reindented tags and content;
* `Nests`, `nests_lines`: its elements nest as the components within do.
-/

namespace CanvasSync

namespace Edit

open CanvasSync.Text (beginsSolid endsSolid isOneLine lines notMem_of_isOneLine pieces stripEnd?
  withoutLineEnd)

/-! ### Blocks -/

/-- Whether the first line of a text is empty. -/
def beginsEmpty : Text → Bool
  | '\n' :: _ => true
  | '\r' :: '\n' :: _ => true
  | _ => false

/-- A text with an indent behind its line feeds, those before an empty line left out, and without
the carriage returns before line feeds. -/
def reindent (indent : Text) : Text → Text
  | [] => []
  | c :: t =>
    if c = '\n' then '\n' :: ((if beginsEmpty t then [] else indent) ++ reindent indent t)
    else if c = '\r' ∧ t.head? = some '\n' then reindent indent t
    else c :: reindent indent t

variable {indent t u : Text} {c : Char}

/-- A line end is all that is taken off a line. -/
lemma withoutLineEnd_cons (c : Char) (p : Text) : withoutLineEnd (c :: p) = c :: withoutLineEnd p
    ∨ c = '\n' ∧ p = [] ∨ c = '\r' ∧ p = ['\n'] := by
  rcases List.eq_nil_or_concat p with rfl | ⟨q, x, rfl⟩
  · by_cases hc : c = '\n'
    · exact .inr (.inl ⟨hc, rfl⟩)
    · left
      simp [withoutLineEnd, stripEnd?, Text.strip?, Ne.symm hc]
  · by_cases hx : x = '\n'
    · subst hx
      rcases List.eq_nil_or_concat q with rfl | ⟨r, y, rfl⟩
      · by_cases hc : c = '\r'
        · exact .inr (.inr ⟨hc, rfl⟩)
        · left
          simp [withoutLineEnd, stripEnd?, Text.strip?, Ne.symm hc]
      · left
        by_cases hy : y = '\r'
        · simp [withoutLineEnd, stripEnd?, Text.strip?, hy]
        · simp [withoutLineEnd, stripEnd?, Text.strip?, Ne.symm hy]
    · left
      simp [withoutLineEnd, stripEnd?, Text.strip?, Ne.symm hx]

/-- Indented lines behind another line. -/
def linesBehind (indent : Text) (ls : List Text) : Text :=
  ls.flatMap fun l => '\n' :: indentLine indent l

lemma join_indentLine (l : Text) (ls : List Text) :
    Text.join ['\n'] ((l :: ls).map (indentLine indent))
      = indentLine indent l ++ linesBehind indent ls := by
  induction ls generalizing l with
  | nil => simp [Text.join, linesBehind]
  | cons k ks ih =>
      have hrest := ih k
      rw [List.map_cons] at hrest
      rw [List.map_cons, List.map_cons, Text.join, hrest]
      · simp [linesBehind]
      · simp

lemma exists_lines_eq_cons (hne : t ≠ []) : ∃ l ls, lines t = l :: ls := by
  cases h : pieces t with
  | nil =>
      have hflatten := Text.flatten_pieces t
      rw [h] at hflatten
      exact absurd hflatten.symm hne
  | cons p ps => exact ⟨_, _, by rw [lines, h, List.map_cons]⟩

lemma ne_lineEnd_of_isBlank (h : isBlank c = false) : c ≠ '\n' ∧ c ≠ '\r' := by
  constructor <;> rintro rfl <;> exact absurd h (by decide)

lemma beginsEmpty_eq (c : Char) (t : Text) :
    beginsEmpty (c :: t) = (c = '\n' || (c = '\r' && t.head? = some '\n')) := by
  by_cases hfeed : c = '\n'
  · subst hfeed
    rfl
  · by_cases hreturn : c = '\r'
    · subst hreturn
      cases t with
      | nil => rfl
      | cons d t =>
          by_cases hd : d = '\n'
          · subst hd
            rfl
          · simp [beginsEmpty, hd]
    · unfold beginsEmpty
      split <;> simp_all

/-- The first line of a text is empty exactly if the text begins with a line end. -/
lemma firstLine_eq_nil_iff {l : Text} {ls : List Text} (h : lines t = l :: ls) :
    l = [] ↔ beginsEmpty t := by
  cases t with
  | nil => cases h
  | cons c t =>
      rw [beginsEmpty_eq]
      by_cases hfeed : c = '\n'
      · subst hfeed
        have hline : l = withoutLineEnd ['\n'] := by
          rw [lines, pieces, if_pos rfl] at h
          exact (List.cons.inj h).1.symm
        have hempty : withoutLineEnd ['\n'] = [] := by decide
        simp [hline, hempty]
      · obtain ⟨p, hp, hhead⟩ : ∃ p, l = withoutLineEnd (c :: p)
            ∧ (p = ['\n'] ↔ t.head? = some '\n') := by
          rw [lines, pieces, if_neg hfeed] at h
          cases t with
          | nil => exact ⟨[], (List.cons.inj h).1.symm, by simp⟩
          | cons d t =>
              by_cases hd : d = '\n'
              · rw [pieces, if_pos hd] at h
                exact ⟨['\n'], (List.cons.inj h).1.symm, by simp [hd]⟩
              · rw [pieces, if_neg hd] at h
                cases hpieces : pieces t with
                | nil =>
                    rw [hpieces] at h
                    exact ⟨[d], (List.cons.inj h).1.symm, by simp⟩
                | cons p ps =>
                    rw [hpieces] at h
                    exact ⟨d :: p, (List.cons.inj h).1.symm, by simp [hd]⟩
        rcases withoutLineEnd_cons c p with hline | ⟨hc, -⟩ | ⟨rfl, rfl⟩
        · have hnot : ¬(c = '\r' ∧ p = ['\n']) := by
            rintro ⟨rfl, rfl⟩
            cases hline
          simp only [hp, hline, hfeed, ← hhead, decide_false, Bool.false_or, reduceCtorEq,
            false_iff, Bool.and_eq_true, decide_eq_true_eq]
          exact hnot
        · exact absurd hc hfeed
        · have hempty : withoutLineEnd ['\r', '\n'] = [] := by decide
          simp [hp, hempty, hhead.mp rfl]

/-- The first line of a text, and the other ones indented, are the text reindented. -/
lemma append_linesBehind {l : Text} {ls : List Text} (hlast : t.getLast? ≠ some '\n')
    (h : lines t = l :: ls) : l ++ linesBehind indent ls = reindent indent t := by
  induction t generalizing l ls with
  | nil => cases h
  | cons c t ih =>
      by_cases hne : t = []
      · subst hne
        have hc : c ≠ '\n' := fun hc => hlast (by rw [hc]; rfl)
        have hlines : lines [c] = [[c]] := by
          simp [lines, pieces, withoutLineEnd, stripEnd?, Text.strip?, Ne.symm hc, hc]
        obtain ⟨rfl, rfl⟩ := List.cons.inj (hlines.symm.trans h)
        simp [linesBehind, reindent, hc]
      obtain ⟨k, ks, hk⟩ := exists_lines_eq_cons hne
      have hlast' : t.getLast? ≠ some '\n' := by
        rw [List.getLast?_eq_some_getLast hne]
        rwa [List.getLast?_cons, List.getLast?_eq_some_getLast hne] at hlast
      have hrest := ih hlast' hk
      by_cases hc : c = '\n'
      · have hlines : lines (c :: t) = [] :: lines t := by
          rw [lines, pieces, if_pos hc]
          rfl
        rw [hlines, hk] at h
        obtain ⟨rfl, rfl⟩ := List.cons.inj h
        have hfirst := firstLine_eq_nil_iff hk
        rw [hc, reindent, if_pos rfl, ← hrest, linesBehind, List.flatMap_cons, List.nil_append,
          indentLine]
        by_cases hempty : k = []
        · rw [if_pos hempty, if_pos (hfirst.mp hempty), hempty]
          rfl
        · rw [if_neg hempty, if_neg fun h => hempty (hfirst.mpr h)]
          simp [linesBehind]
      · cases hp : pieces t with
        | nil => simp [lines, hp] at hk
        | cons p ps =>
            have hhead : p = ['\n'] ↔ t.head? = some '\n' := by
              cases t with
              | nil => exact absurd rfl hne
              | cons d t =>
                  rw [pieces] at hp
                  split at hp
                  · next hd => simp [hd, ← (List.cons.inj hp).1]
                  · next hd =>
                      split at hp <;> simp [hd, ← (List.cons.inj hp).1]
            rw [lines, hp] at hk
            obtain ⟨rfl, rfl⟩ := List.cons.inj hk
            have hlines : lines (c :: t) = withoutLineEnd (c :: p) :: ps.map withoutLineEnd := by
              rw [lines, pieces, if_neg hc, hp]
              rfl
            obtain ⟨rfl, rfl⟩ := List.cons.inj (hlines.symm.trans h)
            rw [reindent, if_neg hc, ← hrest]
            rcases withoutLineEnd_cons c p with hline | ⟨hfeed, -⟩ | ⟨rfl, rfl⟩
            · have hnot : ¬(c = '\r' ∧ t.head? = some '\n') := by
                rintro ⟨rfl, hfeed⟩
                rw [hhead.mpr hfeed] at hline
                cases hline
              rw [if_neg hnot, hline, List.cons_append]
            · exact absurd hfeed hc
            · rw [if_pos ⟨rfl, hhead.mp rfl⟩]
              rfl

/-- **An indented block is the block reindented, behind an indent**, if it begins and ends with what
is not blank. -/
theorem indentBlock_eq (hbegin : beginsSolid t) (hend : endsSolid t) :
    indentBlock indent t = indent ++ reindent indent t := by
  have hne : t ≠ [] := by
    rintro rfl
    cases hbegin
  have hlast : t.getLast? ≠ some '\n' := by
    intro hlast
    rw [endsSolid, hlast] at hend
    exact absurd hend (by decide)
  obtain ⟨l, ls, hl⟩ := exists_lines_eq_cons hne
  have hfirst : l ≠ [] := by
    rw [Ne, firstLine_eq_nil_iff hl]
    obtain ⟨c, t, rfl⟩ := List.exists_cons_of_ne_nil hne
    have hc := ne_lineEnd_of_isBlank (c := c) (by simpa [beginsSolid] using hbegin)
    simp [beginsEmpty_eq, hc]
  rw [indentBlock, hl, join_indentLine, indentLine, if_neg hfirst, List.append_assoc,
    append_linesBehind hlast hl]

/-! ### Parts of a reindented text -/

lemma reindent_cons (hc : c ≠ '\n' ∧ c ≠ '\r') (t : Text) :
    reindent indent (c :: t) = c :: reindent indent t := by
  rw [reindent, if_neg hc.1, if_neg fun h => hc.2 h.1]

/-- What begins with a character of a line is reindented on its own. -/
lemma reindent_append_cons (hc : c ≠ '\n' ∧ c ≠ '\r') (t u : Text) :
    reindent indent (t ++ c :: u) = reindent indent t ++ c :: reindent indent u := by
  induction t with
  | nil => exact reindent_cons hc u
  | cons d t ih =>
      have hempty : beginsEmpty (t ++ c :: u) = beginsEmpty t := by
        cases t with
        | nil => simp [hc, beginsEmpty]
        | cons e t =>
            rw [List.cons_append, beginsEmpty_eq, beginsEmpty_eq]
            cases t <;> simp [hc.1]
      have hhead : (t ++ c :: u).head? = some '\n' ↔ t.head? = some '\n' := by
        cases t <;> simp [hc.1]
      rw [List.cons_append, reindent, reindent, hempty, ih]
      simp only [hhead]
      split_ifs <;> simp

lemma reindent_append_of_beginsSolid (hu : beginsSolid u) (t : Text) :
    reindent indent (t ++ u) = reindent indent t ++ reindent indent u := by
  cases u with
  | nil => cases hu
  | cons c u =>
      have hc : c ≠ '\n' ∧ c ≠ '\r' := ne_lineEnd_of_isBlank (by simpa [beginsSolid] using hu)
      rw [reindent_append_cons hc, reindent_cons hc]

lemma reindent_append_of_endsSolid (ht : endsSolid t) (u : Text) :
    reindent indent (t ++ u) = reindent indent t ++ reindent indent u := by
  obtain ⟨t, c, rfl⟩ : ∃ v c, t = v ++ [c] := by
    rcases List.eq_nil_or_concat t with rfl | ⟨v, c, rfl⟩
    · cases ht
    · exact ⟨v, c, List.concat_eq_append⟩
  have hc : c ≠ '\n' ∧ c ≠ '\r' := ne_lineEnd_of_isBlank (by simpa [endsSolid] using ht)
  rw [List.append_assoc, List.singleton_append, reindent_append_cons hc, reindent_append_cons hc]
  simp [reindent]

/-- A text without line feeds stays as it is. -/
lemma reindent_of_notMem (h : '\n' ∉ t) : reindent indent t = t := by
  induction t with
  | nil => rfl
  | cons c t ih =>
      rw [List.mem_cons, not_or] at h
      have hhead : t.head? ≠ some '\n' := fun hhead => h.2 (List.mem_of_mem_head? hhead)
      rw [reindent, if_neg (Ne.symm h.1), if_neg fun h => hhead h.2, ih h.2]

lemma reindent_of_isOneLine (h : isOneLine t) : reindent indent t = t :=
  reindent_of_notMem (notMem_of_isOneLine h)

lemma beginsEmpty_of_notMem (h : '\n' ∉ t) : beginsEmpty t = false := by
  cases t with
  | nil => rfl
  | cons c t =>
      have hhead : t.head? ≠ some '\n' := fun hhead =>
        h (List.mem_cons_of_mem c (List.mem_of_mem_head? hhead))
      have hc : c ≠ '\n' := fun hc => h (by rw [hc]; exact List.mem_cons_self)
      simp [beginsEmpty_eq, hc, hhead]

/-- The line behind the last line feed is indented. -/
lemma exists_reindent_append (x : Text) {y : Text} (hy : '\n' ∉ y) :
    ∃ z, reindent indent (x ++ '\n' :: y) = z ++ '\n' :: (indent ++ y) := by
  induction x with
  | nil => exact ⟨[], by simp [reindent, beginsEmpty_of_notMem hy, reindent_of_notMem hy]⟩
  | cons c x ih =>
      obtain ⟨z, hz⟩ := ih
      rw [List.cons_append, reindent, hz]
      split_ifs
      · exact ⟨'\n' :: z, rfl⟩
      · exact ⟨'\n' :: (indent ++ z), by simp⟩
      · exact ⟨z, rfl⟩
      · exact ⟨c :: z, rfl⟩

/-- **A text and the text reindented end alike exactly if there is no line feed in it**, and what
stands before the two is the same. -/
theorem append_reindent_eq_append_iff (hindent : '\n' ∉ indent) (hne : indent ≠ []) {x y : Text} :
    x ++ reindent indent t = y ++ t ↔ x = y ∧ '\n' ∉ t := by
  refine ⟨fun h => ?_, fun ⟨hxy, hfree⟩ => by rw [hxy, reindent_of_notMem hfree]⟩
  suffices hfree : '\n' ∉ t by
    rw [reindent_of_notMem hfree] at h
    exact ⟨List.append_cancel_right h, hfree⟩
  intro hmem
  obtain ⟨u, hu, hfeed⟩ := exists_eq_append_lastLine t
  have hlast := notMem_lastLine t
  generalize lastLine t = w at hu hlast
  subst hu
  rcases hfeed with rfl | ⟨v, rfl⟩
  · exact hlast hmem
  · -- the line behind the last line feed would have to be longer than it is
    rw [List.append_assoc, List.singleton_append] at h
    obtain ⟨z, hz⟩ : ∃ z, reindent indent (v ++ '\n' :: w) = z ++ '\n' :: (indent ++ w) :=
      exists_reindent_append v hlast
    have hindented : '\n' ∉ indent ++ w := by simp [hindent, hlast]
    have hline := congrArg lastLine h
    rw [hz, ← List.append_assoc, ← List.append_assoc, lastLine_append_feed, lastLine_append_feed,
      lastLine_of_notMem hindented, lastLine_of_notMem hlast] at hline
    exact hne (List.append_left_eq_self.mp hline)

/-- The characters of a reindented text are those from before and those of the indent. -/
lemma mem_reindent {x : Char} (hx : x ∈ reindent indent t) : x ∈ t ∨ x ∈ indent := by
  induction t with
  | nil => cases hx
  | cons c t ih =>
      have hrest (h : x ∈ reindent indent t) : x ∈ c :: t ∨ x ∈ indent :=
        (ih h).imp_left (List.mem_cons_of_mem c)
      rw [reindent] at hx
      split at hx
      · next hc =>
          rcases List.mem_cons.mp hx with rfl | hx
          · exact .inl (by rw [hc]; exact List.mem_cons_self)
          · rcases List.mem_append.mp hx with hx | hx
            · split at hx
              · cases hx
              · exact .inr hx
            · exact hrest hx
      · split at hx
        · exact hrest hx
        · rcases List.mem_cons.mp hx with rfl | hx
          · exact .inl List.mem_cons_self
          · exact hrest hx

end Edit

/-! ### Reindented tags -/

namespace Markup

open CanvasSync.Edit (reindent)

variable (indent : Text)

/-- The value of an attribute, reindented if it is a string. -/
def AttributeValue.reindented : AttributeValue → AttributeValue
  | .quoted s => .quoted (String.ofList (reindent indent s.toList))
  | v => v

/-- An attribute with its value reindented. -/
def Part.reindented (p : Part) : Part :=
  { p with behind := reindent indent p.behind, value := p.value.reindented indent }

/-- An opening tag with the values of its attributes reindented. -/
def Tag.reindented (t : Tag) : Tag := { t with parts := t.parts.map (Part.reindented indent) }

/-- The tags of a node with the values of the attributes reindented. -/
def Shell.reindented : Shell → Shell
  | fragment => fragment
  | element t => element (t.reindented indent)
  | closed t => closed (t.reindented indent)

/-- A content with all of its texts and the values of its attributes reindented. -/
def Passage.reindented : Passage → Passage
  | text t => text (reindent indent t)
  | braced t e piece rest => braced (reindent indent t) e piece rest.reindented
  | node t shell inner rest =>
    node (reindent indent t) (shell.reindented indent) inner.reindented rest.reindented

end Markup

namespace Edit

open CanvasSync.Json (isOneLine_quote isOneLine_text)
open CanvasSync.Markup (Part Passage Shell Style Tag contentText endsSolid_append_partsText
  endsSolid_of_isMarkupName endsSolid_text partsText)
open CanvasSync.Script.Grammar (IsAttribute IsPlain IsTag Writes isBlank_of_mem_attributeName
  isBlank_of_mem_markupName valueText valueText_cases)
open CanvasSync.Text (beginsSolid endsSolid isOneLine isOneLine_append isOneLine_cons)

variable {indent t : Text}

lemma isOneLine_of_isBlank (h : ∀ c ∈ t, isBlank c = false) : isOneLine t := by
  refine List.all_eq_true.mpr fun c hc => ?_
  simpa using ne_lineEnd_of_isBlank (h c hc)

/-- An attribute behind a space, whose value has line ends between quotes only. -/
def IsSpaced (p : Part) : Prop :=
  p.gap = [' '] ∧ (isOneLine p.behind ∧ (∀ s, p.value ≠ .quoted s)
    ∨ ∃ s : String, '"' ∉ s.toList ∧ p.behind = '=' :: '"' :: (s.toList ++ ['"'])
      ∧ p.value = .quoted s)

lemma isSpaced_ofProp (p : String × Json.Value) : IsSpaced (Part.ofProp p) := by
  refine ⟨rfl, ?_⟩
  rcases valueText_cases p.2 with ⟨htext, hvalue⟩ | ⟨htext, hvalue⟩ | hquoted
  · left
    rw [Part.ofProp, htext, hvalue]
    exact ⟨rfl, by simp⟩
  · left
    rw [Part.ofProp, htext, hvalue, isOneLine_cons, isOneLine_cons, isOneLine_append,
      isOneLine_text p.2]
    exact ⟨rfl, by simp⟩
  · exact .inr hquoted

variable {p : Part} {ps : List Part}

lemma reindent_quoted (t : Text) : reindent indent ('=' :: '"' :: (t ++ ['"']))
    = '=' :: '"' :: (reindent indent t ++ ['"']) := by
  rw [reindent_cons (by decide), reindent_cons (by decide), reindent_append_cons (by decide)]
  rfl

/-- An attribute without line ends stays as it is if it has no string. -/
lemma reindented_eq_self (hline : isOneLine p.behind) (hvalue : ∀ s, p.value ≠ .quoted s) :
    p.reindented indent = p := by
  have hsame : p.value.reindented indent = p.value := by
    cases h : p.value with
    | quoted s => exact absurd h (hvalue s)
    | bare => rfl
    | expression e => rfl
  rw [Part.reindented, reindent_of_isOneLine hline, hsame]

/-- An attribute that is reindented is one of the same name. -/
lemma isAttribute_reindented (hindent : Text.allBlank indent) (hp : IsAttribute p)
    (hspaced : IsSpaced p) : IsAttribute (p.reindented indent) := by
  rcases hspaced.2 with ⟨hline, hvalue⟩ | ⟨s, hs, hbehind, hvalue⟩
  · rw [reindented_eq_self hline hvalue]
    exact hp
  · refine ⟨hp.gap_ne, hp.gap, hp.name, ?_⟩
    have hfree : '"' ∉ reindent indent s.toList := fun hmem => (mem_reindent hmem).elim hs fun hm =>
      absurd (List.all_eq_true.mp hindent _ hm) (by decide)
    rw [Part.reindented, hbehind, hvalue, reindent_quoted]
    exact .quoted (.inl rfl) hfree

/-- An attribute is reindented in its value. -/
lemma reindent_whole (hp : IsAttribute p) (hspaced : IsSpaced p) :
    reindent indent p.whole = (p.reindented indent).whole := by
  have hname : isOneLine (p.gap ++ p.name.toList) := by
    rw [hspaced.1, isOneLine_append,
      isOneLine_of_isBlank (isBlank_of_mem_attributeName hp.name)]
    rfl
  have hends : endsSolid (p.gap ++ p.name.toList) :=
    Text.endsSolid_append _ (Markup.endsSolid_of_isAttributeName hp.name)
  have hwhole (p : Part) : p.whole = (p.gap ++ p.name.toList) ++ p.behind := by
    rw [Part.whole, Part.text, List.append_assoc]
  rw [hwhole, hwhole, reindent_append_of_endsSolid hends, reindent_of_isOneLine hname]
  rfl

/-- Attributes are reindented one by one. -/
lemma reindent_partsText (hps : ∀ p ∈ ps, IsAttribute p ∧ IsSpaced p) (u : Text) :
    reindent indent (partsText ps ++ u)
      = partsText (ps.map (Part.reindented indent)) ++ reindent indent u := by
  induction ps with
  | nil => rfl
  | cons p ps ih =>
      rw [List.forall_mem_cons] at hps
      have hcons (p : Part) (ps : List Part) (u : Text) :
          partsText (p :: ps) ++ u = p.whole ++ (partsText ps ++ u) := by
        rw [Markup.partsText_cons, Part.whole]
        simp only [List.append_assoc]
      have hends : endsSolid p.whole := Text.endsSolid_append _ (endsSolid_text hps.1.1)
      rw [List.map_cons, hcons, hcons, reindent_append_of_endsSolid hends,
        reindent_whole hps.1.1 hps.1.2, ih hps.2]

/-! ### Reindented components -/

variable {style : Style} {c : Component} {cs : List Component} {depth : Nat}

/-- A component on a line of its own before others. -/
lemma written_lines_cons (style : Style) (depth : Nat) (last : Text) (c : Component)
    (cs : List Component) : (Component.lines style depth last (c :: cs)).written
      = Component.lineGap style depth ++ ((c.shell style).wrap (c.inner style depth)
        ++ (Component.lines style depth last cs).written) := by
  simp [Component.lines, Passage.written, Shell.wrap]

/-! A component begins and ends with a sign of its tags, so it is reindented on its own. -/

lemma beginsSolid_wrap (style : Style) (depth : Nat) (c : Component) (u : Text) :
    beginsSolid ((c.shell style).wrap (c.inner style depth) ++ u) := by
  obtain ⟨w, hw⟩ := (c.shell style).exists_wrap_eq_cons (c.inner style depth)
  rw [hw]
  rfl

lemma endsSolid_wrap (style : Style) (depth : Nat) (c : Component) :
    endsSolid ((c.shell style).wrap (c.inner style depth)) :=
  Shell.endsSolid_wrap fun hclosed => Component.inner_of_isClosed hclosed depth

lemma reindent_inner_append_closing (style : Style) (depth : Nat) (c : Component) :
    reindent indent ((c.inner style depth).written ++ (c.shell style).closing)
      = reindent indent (c.inner style depth).written
        ++ reindent indent (c.shell style).closing := by
  cases hclosed : (c.shell style).isClosed with
  | false =>
      have hbegins := Shell.beginsSolid_closing hclosed []
      rw [List.append_nil] at hbegins
      exact reindent_append_of_beginsSolid hbegins _
  | true =>
      rw [Component.inner_of_isClosed hclosed]
      rfl

/-- The attributes of a component stand behind spaces. -/
lemma isAttribute_parts_shell (hstyle : style.IsProper) (hc : c.Printable) :
    ∀ p ∈ (c.shell style).parts, IsAttribute p ∧ IsSpaced p := by
  have htag : IsTag (c.openingTag style []) := Component.isTag_openingTag hstyle hc rfl
  have hparts : (c.shell style).parts = (c.openingTag style []).parts := Component.parts_shell style c
  intro p hp
  rw [hparts] at hp
  refine ⟨htag.parts p hp, ?_⟩
  rcases List.mem_cons.mp hp with rfl | hp
  · exact ⟨rfl, .inr ⟨c.id, hc.id, rfl, rfl⟩⟩
  · obtain ⟨q, -, rfl⟩ := List.mem_map.mp hp
    exact isSpaced_ofProp q

lemma isProper_shell_reindented (hstyle : style.IsProper) (hc : c.Printable)
    (hindent : Text.allBlank indent) : ((c.shell style).reindented indent).IsProper := by
  have hparts := isAttribute_parts_shell hstyle hc
  have hproper := Component.isProper_shell hstyle hc
  have hreindented {t : Tag} (ht : IsTag t) (h : t.parts = (c.shell style).parts) :
      IsTag (t.reindented indent) := by
    refine ⟨ht.name, fun p hp => ?_, ht.gap⟩
    obtain ⟨q, hq, rfl⟩ := List.mem_map.mp hp
    rw [h] at hq
    exact isAttribute_reindented hindent (hparts q hq).1 (hparts q hq).2
  cases hshell : c.shell style with
  | fragment => trivial
  | element t =>
      rw [hshell] at hproper hreindented
      exact hreindented hproper rfl
  | closed t =>
      rw [hshell] at hproper hreindented
      exact hreindented hproper rfl

/-- The opening tag of a component is reindented in its attributes. -/
lemma reindent_opening (hstyle : style.IsProper) (hc : c.Printable) :
    reindent indent (c.shell style).opening = ((c.shell style).reindented indent).opening := by
  have hparts := isAttribute_parts_shell hstyle hc
  have hname : isOneLine ('<' :: c.tag.toList) ∧ endsSolid ('<' :: c.tag.toList) := by
    refine ⟨?_, Text.endsSolid_append ['<'] (endsSolid_of_isMarkupName hc.tag)⟩
    rw [isOneLine_cons, isOneLine_of_isBlank (isBlank_of_mem_markupName hc.tag)]
    rfl
  have htext {t : Tag} (hname' : t.name = c.tag.toList) (ht : t.parts = (c.shell style).parts)
      (u : Text) (hu : isOneLine (t.gap ++ u)) :
      reindent indent (t.text ++ u) = (t.reindented indent).text ++ u := by
    have hsplit : t.text ++ u = ('<' :: c.tag.toList) ++ (partsText t.parts ++ (t.gap ++ u)) := by
      rw [Tag.text, hname']
      simp
    rw [hsplit, reindent_append_of_endsSolid hname.2, reindent_of_isOneLine hname.1, ht,
      reindent_partsText hparts, reindent_of_isOneLine hu, ← ht, ← hname']
    simp [Tag.text, Tag.reindented]
  rw [Component.shell] at htext ⊢
  split at htext
  · next h =>
      rw [if_pos h]
      exact htext rfl rfl ['/', '>'] rfl
  · next h =>
      rw [if_neg h]
      exact htext rfl rfl ['>'] rfl

/-- A component is reindented in its opening tag and in what stands between the tags. -/
lemma reindent_wrap (hstyle : style.IsProper) (hc : c.Printable)
    (hinner : reindent indent (c.inner style depth).written
      = ((c.inner style depth).reindented indent).written) :
    reindent indent ((c.shell style).wrap (c.inner style depth))
      = ((c.shell style).reindented indent).wrap ((c.inner style depth).reindented indent) := by
  have hclosing : isOneLine (c.shell style).closing
      ∧ ((c.shell style).reindented indent).closing = (c.shell style).closing := by
    rw [Component.shell]
    split
    · exact ⟨rfl, rfl⟩
    · refine ⟨?_, rfl⟩
      have hname : isOneLine (c.openingTag style []).name :=
        isOneLine_of_isBlank (isBlank_of_mem_markupName hc.tag)
      rw [Shell.closing, isOneLine_cons, isOneLine_cons, isOneLine_append, hname]
      rfl
  rw [Shell.wrap, reindent_append_of_endsSolid (Shell.endsSolid_opening _),
    reindent_opening hstyle hc, reindent_inner_append_closing, hinner,
    reindent_of_isOneLine hclosing.1, Shell.wrap, hclosing.2]

lemma written_ofText_reindented (t : Text) :
    reindent indent (Passage.ofText t).written = ((Passage.ofText t).reindented indent).written := by
  by_cases hbraces : t.any Markup.needsBraces
  · have hline : isOneLine (contentText t) := by
      rw [contentText, if_pos hbraces, List.cons_append, isOneLine_cons, isOneLine_append,
        isOneLine_quote]
      rfl
    rw [Passage.written_ofText, reindent_of_isOneLine hline, contentText, if_pos hbraces,
      Passage.ofText, if_pos hbraces]
    rfl
  · rw [Passage.ofText, if_neg hbraces]
    rfl

/-- What stands between the tags of a component is reindented in its parts, if those within it are
on lines of their own. -/
lemma reindent_inner_of_lines (hlines : ∀ last, reindent indent
      (Component.lines style (depth + 1) last c.children).written
      = ((Component.lines style (depth + 1) last c.children).reindented indent).written) :
    reindent indent (c.inner style depth).written
      = ((c.inner style depth).reindented indent).written := by
  by_cases hchildren : c.children = []
  · cases ht : c.text? with
    | some t =>
        rw [Component.inner_of_text hchildren ht]
        exact written_ofText_reindented t.toList
    | none =>
        rw [Component.inner_of_leaf hchildren ht]
        rfl
  · rw [Component.inner_of_children hchildren]
    exact hlines _

/-- **Components on lines of their own are reindented in their parts.** -/
theorem reindent_lines (hstyle : style.IsProper) (hcs : Component.arePrintable cs) (depth : Nat)
    (last : Text) : reindent indent (Component.lines style depth last cs).written
      = ((Component.lines style depth last cs).reindented indent).written := by
  induction cs using Component.forestInduction generalizing depth last with
  | nil => rfl
  | cons c cs ihc ihcs =>
      rw [Component.arePrintable, Bool.and_eq_true] at hcs
      have hc := Component.printable_of_isPrintable hcs.1
      have hinner : reindent indent (c.inner style depth).written
          = ((c.inner style depth).reindented indent).written :=
        reindent_inner_of_lines fun last => ihc hc.children (depth + 1) last
      rw [written_lines_cons, reindent_append_of_beginsSolid (beginsSolid_wrap style depth c _),
        reindent_append_of_endsSolid (endsSolid_wrap style depth c), reindent_wrap hstyle hc hinner,
        ihcs hcs.2]
      simp [Component.lines, Passage.reindented, Passage.written, Shell.wrap]

/-! ### Reindented elements -/

lemma isPlain_reindent (hindent : Text.allBlank indent) (ht : IsPlain t) :
    IsPlain (reindent indent t) := by
  intro x hx
  rcases mem_reindent hx with hx | hx
  · exact ht x hx
  · exact Component.isPlain_of_allBlank hindent x hx

/-- A content that is read as written, and whose elements nest as some components do if there are no
line ends in the ids of these. -/
structure Nests (marker : String) (cs : List Component) (q : Passage) : Prop where
  isProper : q.IsProper
  outline : (∀ i ∈ Component.idsAll cs, isOneLine i.toList) →
    Component.outlineAll (q.components marker) = Component.outlineAll cs

/-- The element of a component that is reindented carries its id reindented. -/
lemma marker?_shell_reindented (style : Style) (c : Component) :
    ((c.shell style).reindented indent).marker? style.marker
      = some (String.ofList (reindent indent c.id.toList)) := by
  have hparts : ((c.shell style).reindented indent).parts
      = (c.shell style).parts.map (Part.reindented indent) := by
    cases c.shell style <;> rfl
  have hname : ((Component.markerPart style c.id).reindented indent).name = style.marker := rfl
  rw [Shell.marker?, hparts, Component.parts_shell, List.map_cons,
    List.find?_cons_of_pos (by simpa using hname)]
  rfl

/-- The reindented element of a component before others nests as they do. -/
lemma nests_cons {gap : Text} {q rest : Passage} (hstyle : style.IsProper) (hc : c.Printable)
    (hindent : Text.allBlank indent) (hgap : IsPlain gap)
    (hclosed : (c.shell style).isClosed → q = .text []) (hq : Nests style.marker c.children q)
    (hrest : Nests style.marker cs rest) :
    Nests style.marker (c :: cs) (.node gap ((c.shell style).reindented indent) q rest) := by
  refine ⟨⟨hgap, isProper_shell_reindented hstyle hc hindent, fun h => hclosed ?_, hq.isProper,
    hrest.isProper⟩, fun hids => ?_⟩
  · cases hshell : c.shell style <;> rw [hshell] at h <;> exact h
  · rw [Component.idsAll_cons, List.forall_mem_append, Component.ids_eq, List.forall_mem_cons] at hids
    obtain ⟨⟨hid, hwithin⟩, hbehind⟩ := hids
    rw [Passage.components, marker?_shell_reindented, reindent_of_isOneLine hid,
      String.ofList_toList]
    simp only [List.singleton_append, Component.outlineAll_cons]
    rw [hrest.outline hbehind, Component.outline_eq, Component.outline_eq c]
    simp only [Component.ofTag]
    rw [hq.outline hwithin]

/-- What stands between the tags of a component nests as the components within do, if those are on
lines of their own. -/
lemma nests_inner_of_lines (hstyle : style.IsProper) (hindent : Text.allBlank indent)
    (hlines : ∀ last, IsPlain last → Nests style.marker c.children
      ((Component.lines style (depth + 1) last c.children).reindented indent)) :
    Nests style.marker c.children ((c.inner style depth).reindented indent) := by
  by_cases hchildren : c.children = []
  · rw [hchildren]
    cases ht : c.text? with
    | some t =>
        have hproper := Passage.isProper_ofText t.toList
        rw [Component.inner_of_text hchildren ht]
        unfold Passage.ofText at hproper ⊢
        split
        · next hbraces =>
            rw [if_pos hbraces] at hproper
            exact ⟨hproper, fun _ => rfl⟩
        · next hbraces =>
            rw [if_neg hbraces] at hproper
            exact ⟨isPlain_reindent hindent hproper, fun _ => rfl⟩
    | none =>
        rw [Component.inner_of_leaf hchildren ht]
        exact ⟨List.forall_mem_nil _, fun _ => rfl⟩
  · rw [Component.inner_of_children hchildren]
    exact hlines _ (Component.isPlain_of_allBlank (Component.allBlank_lineGap hstyle depth))

/-- Components on lines of their own that are reindented nest as they do. -/
lemma nests_lines {last : Text} (hstyle : style.IsProper) (hcs : Component.arePrintable cs)
    (hindent : Text.allBlank indent) (hlast : IsPlain last) (depth : Nat) :
    Nests style.marker cs ((Component.lines style depth last cs).reindented indent) := by
  induction cs using Component.forestInduction generalizing depth last with
  | nil => exact ⟨isPlain_reindent hindent hlast, fun _ => rfl⟩
  | cons c cs ihc ihcs =>
      rw [Component.arePrintable, Bool.and_eq_true] at hcs
      have hc := Component.printable_of_isPrintable hcs.1
      have hgap := isPlain_reindent hindent
        (Component.isPlain_of_allBlank (Component.allBlank_lineGap hstyle depth))
      refine nests_cons hstyle hc hindent hgap (fun hclosed => ?_)
        (nests_inner_of_lines hstyle hindent fun _ hl => ihc hc.children hl (depth + 1))
        (ihcs hcs.2 hlast depth)
      rw [Component.inner_of_isClosed hclosed]
      rfl

lemma render_zero (style : Style) (c : Component) :
    Markup.render style 0 c = (c.shell style).wrap (c.inner style 0) := by
  rw [Component.render_eq]
  rfl

/-- The indented markup of a component is this markup reindented, behind an indent. -/
lemma indentBlock_render_eq (style : Style) (c : Component) :
    indentBlock indent (Markup.render style 0 c)
      = indent ++ reindent indent (Markup.render style 0 c) := by
  have hbegins := beginsSolid_wrap style 0 c []
  rw [List.append_nil] at hbegins
  rw [render_zero, indentBlock_eq hbegins (endsSolid_wrap style 0 c)]

/-- **The indented markup of a component is written by its reindented tags and content**, behind an
indent. -/
theorem indentBlock_render (hstyle : style.IsProper) (hc : c.Printable) :
    indentBlock indent (Markup.render style 0 c) = indent
      ++ ((c.shell style).reindented indent).wrap ((c.inner style 0).reindented indent) := by
  rw [indentBlock_render_eq, render_zero, reindent_wrap hstyle hc
    (reindent_inner_of_lines fun last => reindent_lines hstyle hc.children 1 last)]

/-- This element nests as the component does. -/
lemma nests_render (gap : Text) (rest : Passage) (hstyle : style.IsProper) (hc : c.Printable)
    (hindent : Text.allBlank indent) (hgap : IsPlain gap) (hrest : Nests style.marker [] rest) :
    Nests style.marker [c] (.node gap ((c.shell style).reindented indent)
      ((c.inner style 0).reindented indent) rest) := by
  refine nests_cons hstyle hc hindent hgap (fun hclosed => ?_) (nests_inner_of_lines hstyle hindent
    fun _ hl => nests_lines hstyle hc.children hindent hl 1) hrest
  rw [Component.inner_of_isClosed hclosed]
  rfl

end Edit

end CanvasSync
