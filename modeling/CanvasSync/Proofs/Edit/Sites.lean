import CanvasSync.Proofs.Edit.Patches
import CanvasSync.Proofs.Edit.Splices
import CanvasSync.Proofs.Markup.Frames
import CanvasSync.Proofs.Markup.Writing

/-!
An element with some of its props set.

* `updatedParts`: the attributes of a tag as they are once some props are set;
* `Shell.updated`, `Passage.updated`: the tags of an element, and what stands between them;
* `patch_wrap`: a patch of an element gives just this text;
* `isProper_updated`: what is read as written is so with props set.
-/

namespace CanvasSync

open CanvasSync.Edit (attributeChanges contentChange?)
open CanvasSync.Json (Fields Value)
open CanvasSync.Script (isAttributeName)
open CanvasSync.Script.Grammar (IsAttribute IsTag valueText writes_valueText writtenValue)

namespace Markup

/-! ### Props set -/

/-- An attribute with its value set, unless the value takes it away. -/
def Part.set? (v : Value) (p : Part) : Option Part :=
  if v.isNull then none else some ⟨p.gap, p.name, valueText v, writtenValue v⟩

lemma name_of_set? {v : Value} {p q : Part} (h : p.set? v = some q) : q.name = p.name := by
  rw [Part.set?] at h
  split at h
  · cases h
  · exact (Option.some.inj h) ▸ rfl

/-- Attributes with values set under their names. A value counts for the first attribute of its
name. -/
def setParts : Fields → List Part → List Part
  | _, [] => []
  | changes, p :: ps =>
    match Fields.get? p.name changes with
    | some v => (p.set? v).toList ++ setParts (Fields.erase p.name changes) ps
    | none => p :: setParts changes ps

/-- The attributes that values add to those that are there. -/
def addedParts (changes : Fields) (ps : List Part) : List Part :=
  (changes.filter fun c => !(c.1 ∈ ps.map Part.name || c.2.isNull)).map Part.ofProp

/-- The attributes of a tag once some props are set. -/
def updatedParts (changes : Fields) (ps : List Part) : List Part :=
  setParts (attributeChanges changes) ps ++ addedParts (attributeChanges changes) ps

/-- A tag once some props are set. -/
def Tag.updated (changes : Fields) (t : Tag) : Tag :=
  { t with parts := updatedParts changes t.parts }

/-- The tags of an element once some props are set: one that closes itself is opened for a text. -/
def Shell.updated (changes : Fields) : Shell → Shell
  | fragment => fragment
  | element t => element (t.updated changes)
  | closed t =>
    if (contentChange? changes).isSome then element { t.updated changes with gap := [] }
    else closed (t.updated changes)

/-- What stands between the tags of an element once some props are set. -/
def Passage.updated (changes : Fields) (inner : Passage) : Passage :=
  match contentChange? changes with
  | some t => ofText t.toList
  | none => inner

end Markup

namespace Edit

open CanvasSync.Markup (Attribute AttributeValue Document Node Part Passage Shell Style Tag addedParts
  attributesFrom partsText setParts updatedParts)

variable {changes : Fields} {ps : List Part}

/-! ### The stretches of a tag -/

/-- The stretches of attributes that values change. -/
def partsSegments : Fields → List Part → List Segment
  | _, [] => []
  | changes, p :: ps =>
    match Fields.get? p.name changes with
    | some v =>
      (if v.isNull then [.changed p.whole []]
        else [.kept p.gap, .changed p.text (Markup.attributeText p.name v)])
        ++ partsSegments (Fields.erase p.name changes) ps
    | none => .kept p.whole :: partsSegments changes ps

lemma oldText_partsSegments (changes : Fields) (ps : List Part) :
    oldText (partsSegments changes ps) = partsText ps := by
  induction ps generalizing changes with
  | nil => rfl
  | cons p ps ih =>
      rw [partsSegments]
      split
      · split <;> simp [Segment.old, Part.whole, ih]
      · simp [Segment.old, Part.whole, ih]

lemma newText_partsSegments (changes : Fields) (ps : List Part) :
    newText (partsSegments changes ps) = partsText (setParts changes ps) := by
  induction ps generalizing changes with
  | nil => rfl
  | cons p ps ih =>
      rw [partsSegments, setParts]
      cases hget : Fields.get? p.name changes with
      | none => simp [Segment.new, Part.whole, ih]
      | some v =>
          cases hnull : v.isNull <;>
            simp [Segment.new, Part.set?, Part.text, hnull, ih, Script.Grammar.attributeText_eq]

/-- The edits of the attributes are those of the stretches. -/
lemma splicesFrom_partsSegments {before : Text} (hbefore : Text.endsSolid before)
    (hps : ∀ p ∈ ps, IsAttribute p) (changes : Fields) (behind : Text) :
    splicesFrom (Text.size before) (partsSegments changes ps)
      = pick (attributeSplice (before ++ (partsText ps ++ behind))) changes
          (attributesFrom (Text.size before) ps) := by
  induction ps generalizing before changes with
  | nil => rfl
  | cons p ps ih =>
      rw [List.forall_mem_cons] at hps
      have hwhole : Text.size before + Text.size p.whole = Text.size (before ++ p.whole) := by simp
      have hstop : Text.size before + Text.size p.gap + Text.size p.text
          = Text.size (before ++ p.whole) := by
        simp [Part.whole, Nat.add_assoc]
      have hsource : before ++ (partsText (p :: ps) ++ behind)
          = before ++ p.whole ++ (partsText ps ++ behind) := by
        simp [Part.whole]
      have hbehind (changes : Fields) := @ih (before ++ p.whole)
        (Text.endsSolid_append _ (Text.endsSolid_append _ (Markup.endsSolid_text hps.1)))
        hps.2 changes
      have hupTo : Text.trimEnd (Text.upTo (Text.size before + Text.size p.gap)
          (before ++ p.whole ++ (partsText ps ++ behind))) = before := by
        have hassoc : before ++ p.whole ++ (partsText ps ++ behind)
            = (before ++ p.gap) ++ (p.text ++ (partsText ps ++ behind)) := by
          simp [Part.whole]
        rw [hassoc, ← Text.size_append, Text.upTo_size_append, Text.trimEnd_append hbefore hps.1.gap]
      rw [hsource, partsSegments, attributesFrom, pick]
      simp only [hstop]
      cases hget : Fields.get? p.name changes with
      | none =>
          simp only [splicesFrom]
          rw [hwhole, hbehind]
      | some v =>
          cases hnull : v.isNull
          · simp only [Bool.false_eq_true, if_false, List.cons_append, List.nil_append, splicesFrom,
              attributeSplice, hnull, hstop, hbehind]
          · simp only [if_true, List.cons_append, List.nil_append, splicesFrom, attributeSplice,
              hnull, hupTo, Splice.deletion, hwhole, hbehind]

/-- The stretch in which attributes are added. -/
def additions (t : Text) : List Segment := if t = [] then [] else [.changed [] t]

lemma oldText_additions (t : Text) : oldText (additions t) = [] := by
  unfold additions
  split <;> simp [Segment.old]

lemma newText_additions (t : Text) : newText (additions t) = t := by
  unfold additions
  split <;> simp_all [Segment.new]

lemma pairwise_additions (o : Nat) (t : Text) :
    (splicesFrom o (additions t)).Pairwise Splice.precedes := by
  unfold additions
  split <;> simp [splicesFrom]

lemma of_mem_additions {o : Nat} {t : Text} {e : Splice} (h : e ∈ splicesFrom o (additions t)) :
    e.start = o ∧ e.stop = o := by
  unfold additions at h
  split at h <;> simp_all [splicesFrom]

/-- Edits stand in the order of the text if what is added comes between stretches that are not empty
and others that end behind it. -/
lemma pairwise_precedes_additions {o : Nat} {ss ts : List Segment} (t : Text)
    (hss : ∀ t u, Segment.changed t u ∈ ss → t ≠ [])
    (hts : (splicesFrom (o + Text.size (oldText ss)) ts).Pairwise Splice.precedes)
    (hbehind : ∀ e ∈ splicesFrom (o + Text.size (oldText ss)) ts,
      o + Text.size (oldText ss) < e.stop) :
    (splicesFrom o (ss ++ (additions t ++ ts))).Pairwise Splice.precedes := by
  rw [splicesFrom_append, splicesFrom_append, oldText_additions, Text.size_nil, Nat.add_zero]
  refine List.pairwise_append.mpr ⟨pairwise_precedes_splicesFrom hss, List.pairwise_append.mpr
    ⟨pairwise_additions _ _, hts, fun a ha b hb => ?_⟩, fun a ha b hb => .inl ?_⟩
  · obtain ⟨hstart, hstop⟩ := of_mem_additions ha
    have hle := (le_of_mem_splicesFrom hb).1
    have hlt := hbehind b hb
    rw [Splice.precedes]
    omega
  · have hcovers := start_lt_stop_of_mem_splicesFrom hss ha
    have hwithin := (le_of_mem_splicesFrom ha).2.2
    rcases List.mem_append.mp hb with hb | hb
    · have hadded := (of_mem_additions hb).1
      omega
    · have hrest := (le_of_mem_splicesFrom hb).1
      omega

/-! ### The stretches behind the attributes -/

/-- The stretches behind the attributes of an element: the end of its opening tag, its content and
its closing tag. -/
def endSegments (text : Option Text) (inner : Text) : Shell → List Segment
  | .fragment => []
  | .element t =>
    .kept (t.gap ++ ['>']) :: (match text with
        | some u => .changed inner u
        | none => .kept inner) :: [.kept (Shell.element t).closing]
  | .closed t =>
    match text with
    | some u => [.changed (t.gap ++ ['/', '>']) ('>' :: u ++ ['<', '/'] ++ t.name ++ ['>'])]
    | none => [.kept (t.gap ++ ['/', '>'])]

lemma pairwise_endSegments (o : Nat) (text : Option Text) (inner : Text) (shell : Shell) :
    (splicesFrom o (endSegments text inner shell)).Pairwise Splice.precedes := by
  cases text <;> cases shell <;> simp [endSegments, splicesFrom]

lemma lt_stop_of_mem_endSegments {o : Nat} {text : Option Text} {inner : Text} {shell : Shell}
    {e : Splice} (h : e ∈ splicesFrom o (endSegments text inner shell)) : o < e.stop := by
  have hone : '>'.utf8Size = 1 := rfl
  have hslash : '/'.utf8Size = 1 := rfl
  cases text <;> cases shell <;> simp [endSegments, splicesFrom] at h
  · subst h
    simp only [hone]
    omega
  · subst h
    simp only [hone, hslash]
    omega

/-! ### The stretches of an element -/

/-- The stretches of an element and of what stands around it. -/
def shellSegments (changes : Fields) (front back : Text) (shell : Shell) (inner : Text) :
    List Segment :=
  .kept (front ++ '<' :: shell.name) :: (partsSegments (attributeChanges changes) shell.parts
    ++ (additions (partsText (addedParts (attributeChanges changes) shell.parts))
      ++ (endSegments ((contentChange? changes).map fun t => Markup.contentText t.toList) inner shell
        ++ [.kept back])))

variable {front back : Text} {shell : Shell} {inner : Passage}

lemma oldText_shellSegments (changes : Fields) (hshell : shell.isFragment = false)
    (hclosed : shell.isClosed → inner = .text []) :
    oldText (shellSegments changes front back shell inner.written)
      = front ++ (shell.wrap inner ++ back) := by
  cases shell with
  | fragment => cases hshell
  | element t =>
      cases hcontent : contentChange? changes <;>
        simp [shellSegments, endSegments, hcontent, oldText_partsSegments, oldText_additions, Segment.old,
          Shell.wrap, Shell.opening, Shell.name, Shell.parts, Tag.text]
  | closed t =>
      rw [hclosed rfl]
      cases hcontent : contentChange? changes <;>
        simp [shellSegments, endSegments, hcontent, oldText_partsSegments, oldText_additions, Segment.old,
          Shell.wrap, Shell.opening, Shell.closing, Shell.name, Shell.parts, Tag.text,
          Passage.written]

lemma newText_shellSegments (hshell : shell.isFragment = false)
    (hclosed : shell.isClosed → inner = .text []) :
    newText (shellSegments changes front back shell inner.written)
      = front ++ ((shell.updated changes).wrap (inner.updated changes) ++ back) := by
  cases shell with
  | fragment => cases hshell
  | element t =>
      cases hcontent : contentChange? changes <;>
        simp [shellSegments, endSegments, newText_partsSegments, newText_additions, Segment.new,
          Shell.updated, Tag.updated, Passage.updated, updatedParts, hcontent, Shell.wrap,
          Shell.opening, Shell.closing, Shell.name, Shell.parts, Tag.text, Passage.written_ofText]
  | closed t =>
      rw [hclosed rfl]
      cases hcontent : contentChange? changes <;>
        simp [shellSegments, endSegments, newText_partsSegments, newText_additions, Segment.new,
          Shell.updated, Tag.updated, Passage.updated, updatedParts, hcontent, Shell.wrap,
          Shell.opening, Shell.closing, Shell.name, Shell.parts, Tag.text, Passage.written_ofText,
          Passage.written]

/-! ### A patch of an element -/

/-- The edit of the content is that of the stretches behind the attributes. -/
lemma splicesFrom_endSegments (hshell : shell.IsProper) (hfragment : shell.isFragment = false)
    (hclosed : shell.isClosed → inner = .text []) (content : Option String) :
    splicesFrom (Text.size (front ++ '<' :: shell.name) + Text.size (partsText shell.parts))
        (endSegments (content.map fun t => Markup.contentText t.toList) inner.written shell)
      = content.toList.map
          (textSplice (front ++ (shell.wrap inner ++ back)) (shell.node inner (Text.size front))) := by
  have hless : '<'.utf8Size = 1 := rfl
  have hone : '>'.utf8Size = 1 := rfl
  have hslash : '/'.utf8Size = 1 := rfl
  cases content with
  | none => cases shell <;> simp [endSegments, splicesFrom]
  | some u =>
      cases shell with
      | fragment => cases hfragment
      | element t =>
          simp only [endSegments, splicesFrom, textSplice, Shell.node, Shell.isClosed, Shell.opening,
            Shell.name, Shell.parts, Tag.text, Option.map_some, Option.toList_some, List.map_cons,
            List.map_nil, Text.size_append, Text.size_cons, Bool.false_eq_true, if_false,
            Text.size_nil, hone, hless]
          simp only [List.cons.injEq, Splice.mk.injEq, and_true]
          omega
      | closed t =>
          obtain rfl := hclosed rfl
          have htext : front ++ ((Shell.closed t).wrap (.text []) ++ back)
              = (front ++ '<' :: t.name ++ partsText t.parts ++ t.gap) ++ (['/', '>'] ++ back) := by
            simp [Shell.wrap, Shell.opening, Shell.closing, Tag.text, Passage.written]
          have hsolid : Text.endsSolid (front ++ '<' :: t.name ++ partsText t.parts) :=
            Markup.endsSolid_append_partsText (Text.endsSolid_append _ (Text.endsSolid_append ['<']
              (Markup.endsSolid_of_isMarkupName hshell.name))) hshell.parts
          have hstop : Text.size front + Text.size (Shell.closed t).opening
              = Text.size (front ++ '<' :: t.name ++ partsText t.parts ++ t.gap) + 2 := by
            simp only [Shell.opening, Tag.text, Text.size_append, Text.size_cons, Text.size_nil, hone,
              hslash]
            omega
          have htrim : Text.trimEnd (Text.upTo (Text.size front + Text.size (Shell.closed t).opening - 2)
              (front ++ ((Shell.closed t).wrap (.text []) ++ back)))
              = front ++ '<' :: t.name ++ partsText t.parts := by
            rw [hstop, Nat.add_sub_cancel, htext, Text.upTo_size_append,
              Text.trimEnd_append hsolid hshell.gap]
          simp only [endSegments, splicesFrom, textSplice, Shell.node, Shell.isClosed, if_true,
            Option.map_some, Option.toList_some, List.map_cons, List.map_nil, String.toList_ofList]
          rw [htrim, hstop]
          simp only [List.cons.injEq, Splice.mk.injEq, and_true, Text.size_append, Text.size_cons,
            Text.size_nil, hone, hslash, Shell.name, Shell.parts, true_and]
          omega

/-- The edits of an element are those of its attributes, what is added to them, and that of its
content. -/
lemma splicesFrom_shellSegments (changes : Fields) (front back inner : Text) (shell : Shell) :
    splicesFrom 0 (shellSegments changes front back shell inner)
      = splicesFrom (Text.size (front ++ '<' :: shell.name))
          (partsSegments (attributeChanges changes) shell.parts)
        ++ (splicesFrom (Text.size (front ++ '<' :: shell.name) + Text.size (partsText shell.parts))
              (additions (partsText (addedParts (attributeChanges changes) shell.parts)))
            ++ splicesFrom (Text.size (front ++ '<' :: shell.name)
                + Text.size (partsText shell.parts))
              (endSegments ((contentChange? changes).map fun t => Markup.contentText t.toList)
                inner shell)) := by
  simp [shellSegments, splicesFrom, splicesFrom_append, oldText_partsSegments, oldText_additions]

/-- The edits of an element stand in the order of the text. -/
lemma pairwise_shellSegments (hparts : ∀ p ∈ shell.parts, IsAttribute p) (changes : Fields)
    (front back inner : Text) :
    (splicesFrom 0 (shellSegments changes front back shell inner)).Pairwise Splice.precedes := by
  have hne (changes : Fields) : ∀ t u,
      Segment.changed t u ∈ partsSegments changes shell.parts → t ≠ [] := by
    intro t u
    generalize shell.parts = ps at hparts
    induction ps generalizing changes with
    | nil => simp [partsSegments]
    | cons p ps ih =>
        rw [List.forall_mem_cons] at hparts
        have hsolid : p.text ≠ [] := by
          rintro hnil
          have hends := Markup.endsSolid_text hparts.1
          simp [hnil, Text.endsSolid] at hends
        have hrest (changes : Fields) := ih changes hparts.2
        intro ht
        rw [partsSegments] at ht
        split at ht
        · rcases List.mem_append.mp ht with ht | ht
          · split at ht <;> simp_all [Part.whole]
          · exact hrest _ ht
        · exact hrest _ (by simpa using ht)
  have hends (o : Nat) (text : Option Text) : splicesFrom o (endSegments text inner shell
      ++ [.kept back]) = splicesFrom o (endSegments text inner shell) := by
    rw [splicesFrom_append, splicesFrom, splicesFrom, List.append_nil]
  rw [shellSegments, splicesFrom]
  refine pairwise_precedes_additions _ (hne _) ?_ fun e he => ?_
  · rw [hends]
    exact pairwise_endSegments _ _ _ _
  · -- the tag ends behind what is added to it
    rw [hends] at he
    exact lt_stop_of_mem_endSegments he

/-- Attributes are added behind those that are there. -/
lemma additionPoint_node (front : Text) (shell : Shell) (inner : Passage) :
    additionPoint (shell.node inner (Text.size front))
      = Text.size (front ++ '<' :: shell.name) + Text.size (partsText shell.parts) := by
  have hless : '<'.utf8Size = 1 := rfl
  have hattributes : (shell.node inner (Text.size front)).attributes
      = attributesFrom (Text.size (front ++ '<' :: shell.name)) shell.parts := by
    simp [Shell.node, hless, Nat.add_assoc]
  rw [additionPoint, hattributes]
  rcases List.eq_nil_or_concat shell.parts with hnil | ⟨ps, p, hps⟩
  · simp [hnil, attributesFrom, Shell.node, hless, Nat.add_assoc]
  · rw [List.concat_eq_append] at hps
    rw [hps, Markup.attributesFrom_append, attributesFrom]
    simp [attributesFrom, Nat.add_assoc]

/-- What a patch adds to the attributes of an element. -/
lemma flatMap_addedBy (changes : Fields) (o : Nat) : changes.flatMap (addedBy (shell.node inner o))
    = partsText (addedParts (attributeChanges changes) shell.parts) := by
  have hhas (k : String) : ((shell.node inner o).attribute? k).isSome
      = decide (k ∈ shell.parts.map Part.name) := by
    have hnames := congrArg (List.map Prod.fst)
      (Markup.map_attributesFrom (o + 1 + Text.size shell.name) shell.parts)
    rw [List.map_map, List.map_map] at hnames
    have hmem : k ∈ shell.parts.map Part.name
        ↔ k ∈ (shell.node inner o).attributes.map Attribute.name := by
      rw [Shell.node]
      exact (congrArg (k ∈ ·) hnames.symm).to_iff
    rw [Bool.eq_iff_iff, decide_eq_true_iff, hmem, Node.attribute?, List.find?_isSome]
    simp
  rw [addedParts, attributeChanges]
  induction changes with
  | nil => rfl
  | cons c cs ih =>
      rw [List.flatMap_cons, ih, addedBy]
      cases hcontent : contentOf? c with
      | some t => simp [hcontent]
      | none =>
          rw [List.filter_cons_of_pos (by simp [hcontent])]
          simp only [hhas]
          cases hold : decide (c.1 ∈ shell.parts.map Part.name) || c.2.isNull
          · rw [List.filter_cons_of_pos (by rw [hold]; rfl), List.map_cons, partsText, partsText,
              List.flatMap_cons, Part.whole_ofProp]
            rfl
          · rw [List.filter_cons_of_neg (by rw [hold]; exact Bool.false_ne_true)]
            rfl

/-- **A patch sets the props of an element as a reader of its tag would**: attributes are replaced
where they stand or taken away with the blanks before them, new ones follow the last one, and a text
becomes the content. -/
theorem patch_wrap {d : Document} {i : Nat} {out : Text} {style : Style} (hshell : shell.IsProper)
    (hfragment : shell.isFragment = false) (hclosed : shell.isClosed → inner = .text [])
    (hnode : nodeAt d i = shell.node inner (Text.size front)) (hkeys : (changes.map Prod.fst).Nodup)
    (hmarker : ∀ c ∈ changes, c.1 ≠ style.marker)
    (hpatch : patch (front ++ (shell.wrap inner ++ back)) d i changes style = .ok out) :
    out = front ++ ((shell.updated changes).wrap (inner.updated changes) ++ back)
      ∧ ((d.entries[i]?).any (fun e => !e.children.isEmpty) = true →
        contentChange? changes = none) := by
  have hparts : ∀ p ∈ shell.parts, IsAttribute p := by
    cases shell with
    | fragment => cases hfragment
    | element t => exact hshell.parts
    | closed t => exact hshell.parts
  have hname : Text.endsSolid (front ++ '<' :: shell.name) := by
    refine Text.endsSolid_append _ (Text.endsSolid_append ['<'] ?_)
    cases shell with
    | fragment => cases hfragment
    | element t => exact Markup.endsSolid_of_isMarkupName hshell.name
    | closed t => exact Markup.endsSolid_of_isMarkupName hshell.name
  obtain ⟨hout, hcontent⟩ := patch_eq_ok hnode hmarker hpatch
  refine ⟨?_, fun he => ?_⟩
  · have hsource : ∃ behind, front ++ (shell.wrap inner ++ back)
        = (front ++ '<' :: shell.name) ++ (partsText shell.parts ++ behind) := by
      rw [← oldText_shellSegments changes hfragment hclosed, shellSegments, oldText_cons,
        oldText_append, oldText_partsSegments]
      exact ⟨_, rfl⟩
    have hattributes : ((attributeChanges changes).filterMap fun c =>
        ((shell.node inner (Text.size front)).attribute? c.1).map
          (attributeSplice (front ++ (shell.wrap inner ++ back)) c.2)).Perm
          (splicesFrom (Text.size (front ++ '<' :: shell.name))
            (partsSegments (attributeChanges changes) shell.parts)) := by
      obtain ⟨behind, hbehind⟩ := hsource
      have hstart : Text.size (front ++ '<' :: shell.name)
          = Text.size front + 1 + Text.size shell.name := by
        have hless : '<'.utf8Size = 1 := rfl
        simp [hless, Nat.add_assoc]
      rw [hbehind, splicesFrom_partsSegments hname hparts, hstart]
      exact filterMap_attribute?_perm (hkeys.sublist (List.filter_sublist.map _)) _
    have hadditions : (if changes.flatMap (addedBy (shell.node inner (Text.size front))) = [] then []
        else [Splice.insertion (additionPoint (shell.node inner (Text.size front)))
          (changes.flatMap (addedBy (shell.node inner (Text.size front))))])
          = splicesFrom (Text.size (front ++ '<' :: shell.name) + Text.size (partsText shell.parts))
            (additions (partsText (addedParts (attributeChanges changes) shell.parts))) := by
      rw [flatMap_addedBy, additionPoint_node, additions]
      split <;> simp [splicesFrom, Splice.insertion]
    have hedits := (filterMap_spliceOf?_perm (front ++ (shell.wrap inner ++ back))
      (shell.node inner (Text.size front)) hkeys).append_right
      (splicesFrom (Text.size (front ++ '<' :: shell.name) + Text.size (partsText shell.parts))
        (additions (partsText (addedParts (attributeChanges changes) shell.parts))))
    rw [← splicesFrom_endSegments hshell hfragment hclosed, List.append_assoc] at hedits
    rw [hout, hadditions, ← newText_shellSegments hfragment hclosed,
      ← oldText_shellSegments changes hfragment hclosed]
    refine applyAll_segments ?_ (pairwise_shellSegments hparts changes front back inner.written)
    rw [splicesFrom_shellSegments, oldText_shellSegments changes hfragment hclosed]
    exact hedits.trans (hattributes.append List.perm_append_comm)
  · have hnil := filterMap_contentOf? hkeys
    rw [List.filterMap_eq_nil_iff.mpr (hcontent he)] at hnil
    cases ht : contentChange? changes with
    | none => rfl
    | some t => simp [ht] at hnil

end Edit

namespace Markup

/-! ### Tags that are read as written -/

variable {changes : Fields} {ps : List Part} {shell : Shell} {inner : Passage}

lemma isAttribute_setParts (hps : ∀ p ∈ ps, IsAttribute p) (hchanges : ∀ c ∈ changes, c.2.isPlain) :
    ∀ p ∈ setParts changes ps, IsAttribute p := by
  induction ps generalizing changes with
  | nil => exact List.forall_mem_nil _
  | cons p ps ih =>
      rw [List.forall_mem_cons] at hps
      rw [setParts]
      cases hget : Fields.get? p.name changes with
      | none => exact List.forall_mem_cons.mpr ⟨hps.1, ih hps.2 hchanges⟩
      | some v =>
          refine List.forall_mem_append.mpr ⟨fun q hq => ?_,
            ih hps.2 fun c hc => hchanges c (List.mem_of_mem_filter hc)⟩
          cases hnull : v.isNull
          · obtain rfl : q = ⟨p.gap, p.name, valueText v, writtenValue v⟩ := by
              simpa [Part.set?, hnull] using hq
            exact ⟨hps.1.gap_ne, hps.1.gap, hps.1.name,
              writes_valueText (hchanges _ (Fields.mem_of_get? hget))⟩
          · simp [Part.set?, hnull] at hq

/-- Attributes are read as written once props with names for keys are set. -/
lemma isAttribute_updatedParts (hps : ∀ p ∈ ps, IsAttribute p)
    (hchanges : ∀ c ∈ changes, isAttributeName c.1.toList ∧ c.2.isPlain) :
    ∀ p ∈ updatedParts changes ps, IsAttribute p := by
  refine List.forall_mem_append.mpr ⟨isAttribute_setParts hps fun c hc =>
    (hchanges c (List.mem_of_mem_filter hc)).2, fun p hp => ?_⟩
  obtain ⟨c, hc, rfl⟩ := List.mem_map.mp hp
  obtain ⟨hname, hvalue⟩ := hchanges c (List.mem_of_mem_filter (List.mem_of_mem_filter hc))
  exact Part.isAttribute_ofProp hname hvalue

lemma IsProper.updated (hshell : shell.IsProper)
    (hchanges : ∀ c ∈ changes, isAttributeName c.1.toList ∧ c.2.isPlain) :
    (shell.updated changes).IsProper := by
  cases shell with
  | fragment => trivial
  | element t => exact ⟨hshell.name, isAttribute_updatedParts hshell.parts hchanges, hshell.gap⟩
  | closed t =>
      rw [Shell.updated]
      split
      · exact ⟨hshell.name, isAttribute_updatedParts hshell.parts hchanges, rfl⟩
      · exact ⟨hshell.name, isAttribute_updatedParts hshell.parts hchanges, hshell.gap⟩

lemma isProper_updated (hinner : inner.IsProper) (changes : Fields) :
    (inner.updated changes).IsProper := by
  unfold Passage.updated
  split
  · exact Passage.isProper_ofText _
  · exact hinner

lemma updated_of_isClosed (hclosed : shell.isClosed → inner = .text [])
    (h : (shell.updated changes).isClosed) : inner.updated changes = .text [] := by
  cases shell with
  | fragment => cases h
  | element t => cases h
  | closed t =>
      rw [Shell.updated] at h
      split at h
      · cases h
      · next hnone =>
          rw [Passage.updated, Option.not_isSome_iff_eq_none.mp hnone]
          exact hclosed rfl

end Markup

end CanvasSync
