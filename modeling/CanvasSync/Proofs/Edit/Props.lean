import CanvasSync.Proofs.Edit.Pages
import CanvasSync.Proofs.Markup.RoundTrip

/-!
Props set in a source and props set in a component.

* `partOf?`: the attribute of a name, before and after some props are set;
* `props_updated`: the props that the tags and the content of an element give once some are set are
  those that it gave before, with these merged into them;
-/

namespace CanvasSync

open CanvasSync.Edit (attributeChanges contentChange? contentOf?)
open CanvasSync.Json (Fields Value)
open CanvasSync.Script (isAttributeName)
open CanvasSync.Script.Grammar (writtenValue)

/-! ### Props merged -/

namespace Update

variable {props changes : Fields} {k : String}

lemma get?_mergeProp (props : Fields) (key : String) (v : Value) (k : String) :
    Fields.get? k (mergeProp props key v)
      = if key = k then (if v.isNull then none else some v) else Fields.get? k props := by
  rw [mergeProp]
  cases v.isNull
  · exact Fields.get?_insert
  · exact Fields.get?_erase

/-- Props merged into others are found instead of them. -/
lemma get?_mergeProps (hkeys : (changes.map Prod.fst).Nodup) (props : Fields) (k : String) :
    Fields.get? k (mergeProps props changes) = match Fields.get? k changes with
      | some v => if v.isNull then none else some v
      | none => Fields.get? k props := by
  induction changes generalizing props with
  | nil => rfl
  | cons c cs ih =>
      rw [List.map_cons, List.nodup_cons] at hkeys
      have hcons : mergeProps props (c :: cs) = mergeProps (mergeProp props c.1 c.2) cs := rfl
      rw [hcons, ih hkeys.2, get?_mergeProp, Fields.get?]
      by_cases hk : c.1 = k
      · have hnone : Fields.get? k cs = none := Fields.get?_eq_none_iff.mpr fun m hm hmk =>
          hkeys.1 (List.mem_map.mpr ⟨m, hm, hmk.trans hk.symm⟩)
        rw [if_pos hk, if_pos hk, hnone]
      · rw [if_neg hk, if_neg hk]

lemma isRising_mergeProps (hprops : props.isRising) (changes : Fields) :
    (mergeProps props changes).isRising := by
  induction changes generalizing props with
  | nil => exact hprops
  | cons c cs ih =>
      have hmerge : (mergeProp props c.1 c.2).isRising := by
        rw [mergeProp]
        split
        · exact Fields.isRising_erase hprops
        · exact Fields.isRising_insert hprops
      exact ih hmerge

end Update

namespace Markup

open Update (mergeProps)

variable {changes : Fields} {ps : List Part} {shell : Shell} {inner : Passage} {k marker : String}

/-! ### The attribute of a name -/

/-- The first attribute of a name. -/
def partOf? (k : String) (ps : List Part) : Option Part := ps.find? fun p => p.name = k

lemma partOf?_cons (k : String) (p : Part) (ps : List Part) :
    partOf? k (p :: ps) = if p.name = k then some p else partOf? k ps := by
  rw [partOf?, List.find?_cons]
  by_cases h : p.name = k <;> simp [h, partOf?]

lemma partOf?_append (k : String) (ps qs : List Part) :
    partOf? k (ps ++ qs) = (partOf? k ps).or (partOf? k qs) := List.find?_append

lemma partOf?_eq_none_iff : partOf? k ps = none ↔ k ∉ ps.map Part.name := by
  simp [partOf?, List.find?_eq_none]

/-- An attribute whose value is set stands under its name, or is taken away. -/
lemma partOf?_setParts (hnames : (ps.map Part.name).Nodup) (changes : Fields) (k : String) :
    partOf? k (setParts changes ps) = (partOf? k ps).bind fun p =>
      match Fields.get? k changes with
      | some v => p.set? v
      | none => some p := by
  induction ps generalizing changes with
  | nil => rfl
  | cons p ps ih =>
      rw [List.map_cons, List.nodup_cons] at hnames
      have ih := ih hnames.2
      rw [setParts, partOf?_cons]
      by_cases hk : p.name = k
      · subst hk
        have hnone (changes : Fields) : partOf? p.name (setParts changes ps) = none := by
          rw [ih, partOf?_eq_none_iff.mpr hnames.1]
          rfl
        rw [if_pos rfl, Option.bind_some]
        cases hget : Fields.get? p.name changes with
        | none => simp [partOf?_cons]
        | some v =>
            simp only [partOf?_append, hnone, Option.or_none]
            cases hset : p.set? v with
            | none => rfl
            | some q => simp [partOf?_cons, name_of_set? hset]
      · rw [if_neg hk]
        cases hget : Fields.get? p.name changes with
        | none => simp only [partOf?_cons, if_neg hk, ih]
        | some v =>
            have hhead : partOf? k (p.set? v).toList = none := by
              refine partOf?_eq_none_iff.mpr fun h => ?_
              obtain ⟨q, hq, hname⟩ := List.mem_map.mp h
              exact hk ((name_of_set? (by simpa using hq)).symm.trans hname)
            simp only [partOf?_append, hhead, Option.none_or, ih, Fields.get?_erase, if_neg hk]

/-- Values are added under names that are not there. -/
lemma partOf?_addedParts (hkeys : (changes.map Prod.fst).Nodup) (ps : List Part) (k : String) :
    partOf? k (addedParts changes ps) = if k ∈ ps.map Part.name then none
      else (Fields.get? k changes).bind fun v =>
        if v.isNull then none else some (Part.ofProp (k, v)) := by
  induction changes with
  | nil => simp [addedParts, partOf?, Fields.get?]
  | cons c cs ih =>
      rw [List.map_cons, List.nodup_cons] at hkeys
      have ih := ih hkeys.2
      rw [addedParts] at ih ⊢
      obtain ⟨key, v⟩ := c
      by_cases hk : key = k
      · subst hk
        have hnone : Fields.get? key cs = none := Fields.get?_eq_none_iff.mpr fun m hm hmk =>
          hkeys.1 (List.mem_map.mpr ⟨m, hm, hmk⟩)
        rw [hnone] at ih
        by_cases hin : key ∈ ps.map Part.name
        · rw [List.filter_cons_of_neg (by simp [hin]), ih, if_pos hin, if_pos hin]
        · cases hnull : v.isNull
          · rw [List.filter_cons_of_pos (by simpa [hnull] using hin), List.map_cons, partOf?_cons]
            simp [hin, Part.ofProp, Fields.get?, hnull]
          · rw [List.filter_cons_of_neg (by simp [hnull]), ih]
            simp [Fields.get?, hnull]
      · have hget : Fields.get? k ((key, v) :: cs) = Fields.get? k cs := by
          rw [Fields.get?, if_neg hk]
        rw [hget, ← ih, List.filter_cons]
        split
        · rw [List.map_cons, partOf?_cons, if_neg (by simpa [Part.ofProp] using hk)]
        · rfl

/-! ### The props of an element -/

/-- The props that attributes give. -/
lemma get?_fields (hnames : (shell.parts.map Part.name).Nodup) (marker k : String) :
    Fields.get? k (shell.fields marker) = if k = marker then none
      else (partOf? k shell.parts).bind fun p => propValue? p.value := by
  rw [Shell.fields]
  generalize shell.parts = ps at hnames ⊢
  induction ps with
  | nil => simp [partOf?, Fields.get?]
  | cons p ps ih =>
      rw [List.map_cons, List.nodup_cons] at hnames
      have ih := ih hnames.2
      by_cases hm : p.name = marker
      · rw [List.filter_cons_of_neg (by simpa using hm), ih, partOf?_cons]
        by_cases hk : k = marker
        · rw [if_pos hk, if_pos hk]
        · rw [if_neg hk, if_neg hk, if_neg (fun h => hk (h.symm.trans hm))]
      · rw [List.filter_cons_of_pos (by simpa using hm), List.filterMap_cons, partOf?_cons]
        by_cases hk : p.name = k
        · subst hk
          rw [partOf?_eq_none_iff.mpr hnames.1] at ih
          rw [if_neg hm] at ih ⊢
          rw [if_pos rfl, Option.bind_some]
          cases propValue? p.value with
          | none => exact ih
          | some v => simp [Fields.get?]
        · rw [if_neg hk, ← ih]
          cases propValue? p.value with
          | none => rfl
          | some v => simp [Fields.get?, hk]

/-- The keys of the props that attributes give are their names. -/
lemma nodup_fields (hnames : (shell.parts.map Part.name).Nodup) (marker : String) :
    ((shell.fields marker).map Prod.fst).Nodup := by
  have hsublist : ((shell.fields marker).map Prod.fst).Sublist (shell.parts.map Part.name) := by
    rw [Shell.fields]
    induction shell.parts with
    | nil => exact List.Sublist.slnil
    | cons p ps ih =>
        rw [List.filter_cons]
        split
        · rw [List.filterMap_cons]
          cases propValue? p.value with
          | none => exact ih.cons _
          | some v => exact ih.cons_cons _
        · exact ih.cons _
  exact hnames.sublist hsublist

/-- The props of an element are those of its attributes, but for the text between its tags. -/
lemma get?_props (hnames : (shell.parts.map Part.name).Nodup) (marker k : String)
    (inner : Passage) : Fields.get? k (shell.props marker inner)
      = ((Script.Grammar.contentText inner.pieces).bind fun t =>
          if k = "children" then some (.string t) else none).or
        (if k = marker then none
          else (partOf? k shell.parts).bind fun p => propValue? p.value) := by
  rw [Shell.props, Fields.get?_ofList, List.reverse_append, Fields.get?_append,
    Fields.get?_reverse (nodup_fields hnames marker), get?_fields hnames]
  cases Script.Grammar.contentText inner.pieces with
  | none => simp [Fields.get?]
  | some t =>
      by_cases hk : k = "children"
      · simp [Fields.get?, hk]
      · simp [Fields.get?, hk, Ne.symm hk]

/-! ### Props set -/

lemma get?_attributeChanges (hkeys : (changes.map Prod.fst).Nodup) (k : String) :
    Fields.get? k (attributeChanges changes)
      = (Fields.get? k changes).bind fun v => if (contentOf? (k, v)).isNone then some v else none := by
  rw [attributeChanges]
  induction changes with
  | nil => rfl
  | cons c cs ih =>
      rw [List.map_cons, List.nodup_cons] at hkeys
      have ih := ih hkeys.2
      obtain ⟨key, v⟩ := c
      by_cases hk : key = k
      · subst hk
        have hnone : Fields.get? key cs = none := Fields.get?_eq_none_iff.mpr fun m hm hmk =>
          hkeys.1 (List.mem_map.mpr ⟨m, hm, hmk⟩)
        rw [hnone, Option.bind_none] at ih
        have hget : Fields.get? key ((key, v) :: cs) = some v := by rw [Fields.get?, if_pos rfl]
        rw [hget, Option.bind_some, List.filter_cons]
        split
        · rw [Fields.get?, if_pos rfl]
        · exact ih
      · have hget : Fields.get? k ((key, v) :: cs) = Fields.get? k cs := by
          rw [Fields.get?, if_neg hk]
        rw [hget, ← ih, List.filter_cons]
        split
        · rw [Fields.get?, if_neg hk]
        · rfl

/-- An attribute whose value is set stands under its name, and so does one that is added. -/
lemma partOf?_updatedParts (hnames : (ps.map Part.name).Nodup) (hkeys : (changes.map Prod.fst).Nodup)
    (k : String) : (partOf? k (updatedParts changes ps)).map Part.value
      = match Fields.get? k (attributeChanges changes) with
        | some v => if v.isNull then none else some (writtenValue v)
        | none => (partOf? k ps).map Part.value := by
  have hkeys' : ((attributeChanges changes).map Prod.fst).Nodup :=
    hkeys.sublist (List.filter_sublist.map _)
  rw [updatedParts, partOf?_append, partOf?_setParts hnames, partOf?_addedParts hkeys']
  cases hp : partOf? k ps with
  | none =>
      rw [if_neg (partOf?_eq_none_iff.mp hp), Option.bind_none, Option.none_or]
      cases Fields.get? k (attributeChanges changes) with
      | none => rfl
      | some v => cases hnull : v.isNull <;> simp [hnull, Part.ofProp]
  | some p =>
      have hin : k ∈ ps.map Part.name := by
        by_contra h
        rw [partOf?_eq_none_iff.mpr h] at hp
        cases hp
      rw [if_pos hin, Option.or_none, Option.bind_some]
      cases Fields.get? k (attributeChanges changes) with
      | none => rfl
      | some v => cases hnull : v.isNull <;> simp [hnull, Part.set?]

lemma nodup_updatedParts (hnames : (ps.map Part.name).Nodup)
    (hkeys : (changes.map Prod.fst).Nodup) : ((updatedParts changes ps).map Part.name).Nodup := by
  have hset (changes : Fields) : ((setParts changes ps).map Part.name).Sublist (ps.map Part.name) := by
    induction ps generalizing changes with
    | nil => exact List.Sublist.slnil
    | cons p ps ih =>
        rw [List.map_cons, List.nodup_cons] at hnames
        rw [setParts]
        split
        · next v _ =>
            cases hq : p.set? v with
            | none => exact (ih hnames.2 _).cons _
            | some q =>
                have hcons := (ih hnames.2 (Fields.erase p.name changes)).cons_cons q.name
                rw [name_of_set? hq] at hcons
                simpa [name_of_set? hq] using hcons
        · exact (ih hnames.2 _).cons_cons _
  have hadded : ((addedParts (attributeChanges changes) ps).map Part.name).Sublist
      (changes.map Prod.fst) := by
    have hname : (addedParts (attributeChanges changes) ps).map Part.name
        = ((attributeChanges changes).filter fun c =>
            !(c.1 ∈ ps.map Part.name || c.2.isNull)).map Prod.fst := by
      rw [addedParts, List.map_map]
      rfl
    rw [hname]
    exact (List.filter_sublist.trans List.filter_sublist).map _
  rw [updatedParts, List.map_append, List.nodup_append]
  refine ⟨hnames.sublist (hset _), hkeys.sublist hadded, fun k hk l hl hkl => ?_⟩
  subst hkl
  obtain ⟨q, hq, rfl⟩ := List.mem_map.mp hl
  obtain ⟨c, hc, rfl⟩ := List.mem_map.mp hq
  have hnot := List.of_mem_filter hc
  simp only [Bool.not_eq_true', Bool.or_eq_false_iff, decide_eq_false_iff_not] at hnot
  exact hnot.1 ((hset _).subset hk)

/-- The attributes of an element once some props are set. -/
lemma parts_updated (changes : Fields) (hfragment : shell.isFragment = false) :
    (shell.updated changes).parts = updatedParts changes shell.parts := by
  cases shell with
  | fragment => cases hfragment
  | element t => rfl
  | closed t =>
      rw [Shell.updated]
      split <;> rfl

lemma name_updated (changes : Fields) (shell : Shell) :
    (shell.updated changes).name = shell.name := by
  cases shell with
  | fragment => rfl
  | element t => rfl
  | closed t =>
      rw [Shell.updated]
      split <;> rfl

/-- The text between the tags of an element is that of the prop `children`, if this is a string
without blanks at its ends, and otherwise stays. -/
lemma contentText_updated (hcontent : ∀ t, contentChange? changes = some t →
      Component.isContent (.string t)) (inner : Passage) :
    Script.Grammar.contentText (inner.updated changes).pieces
      = (contentChange? changes).or (Script.Grammar.contentText inner.pieces) := by
  rw [Passage.updated]
  cases ht : contentChange? changes with
  | none => rw [Option.none_or]
  | some t =>
      have h := hcontent t ht
      simp only [Component.isContent, Bool.and_eq_true, Bool.not_eq_true', decide_eq_true_eq,
        List.isEmpty_eq_false_iff] at h
      rw [contentText_ofText, h.2, if_neg h.1, String.ofList_toList, Option.some_or]

/-- **The props of an element once some are set are those from before with these merged into
them.** -/
theorem props_updated (inner : Passage) (hfragment : shell.isFragment = false)
    (hnames : (shell.parts.map Part.name).Nodup) (hkeys : (changes.map Prod.fst).Nodup)
    (hmarker : ∀ c ∈ changes, c.1 ≠ marker)
    (hvalues : ∀ c ∈ changes, c.2.isPlain ∧ c.2.depth ≤ Json.depthLimit)
    (hcontent : ∀ t, contentChange? changes = some t → Component.isContent (.string t))
    (hchildren : (Script.Grammar.contentText inner.pieces).isSome →
      ∀ v, Fields.get? "children" changes = some v → v.string?.isSome) :
    (shell.updated changes).props marker (inner.updated changes)
      = mergeProps (shell.props marker inner) changes := by
  have hnames' : ((shell.updated changes).parts.map Part.name).Nodup := by
    rw [parts_updated changes hfragment]
    exact nodup_updatedParts hnames hkeys
  refine Fields.ext_get? (Fields.isRising_ofList _)
    (Update.isRising_mergeProps (Fields.isRising_ofList _) _) fun k => ?_
  have hbind (ps : List Part) : ((partOf? k ps).bind fun p => propValue? p.value)
      = ((partOf? k ps).map Part.value).bind propValue? := by
    cases partOf? k ps <;> rfl
  rw [get?_props hnames', Update.get?_mergeProps hkeys, get?_props hnames,
    contentText_updated hcontent, parts_updated changes hfragment, hbind, hbind,
    partOf?_updatedParts hnames hkeys, get?_attributeChanges hkeys]
  -- the text between the tags counts for `children` only
  have hother (hk : k ≠ "children") (t? : Option String) : (t?.bind fun t =>
      if k = "children" then some (Value.string t) else none) = none := by
    cases t? <;> simp [hk]
  cases hget : Fields.get? k changes with
  | none =>
      by_cases hk : k = "children"
      · subst hk
        have hnone : contentChange? changes = none := by rw [contentChange?, hget]; rfl
        rw [hnone, Option.none_or]
        rfl
      · rw [hother hk, hother hk]
        rfl
  | some v =>
      have hmem := Fields.mem_of_get? hget
      obtain ⟨hplain, hdepth⟩ := hvalues _ hmem
      have hvalue : (if v.isNull then none else some (writtenValue v)).bind propValue?
          = if v.isNull then none else some v := by
        split
        · rfl
        · exact propValue?_writtenValue hplain hdepth
      rw [if_neg (hmarker _ hmem)]
      by_cases hk : k = "children"
      · subst hk
        cases hstring : v.string? with
        | some t =>
            have hv : v = .string t := by
              cases v <;> simp_all [Value.string?]
            have hchange : contentChange? changes = some t := by rw [contentChange?, hget]; exact hstring
            rw [hchange, hv]
            rfl
        | none =>
            have hchange : contentChange? changes = none := by rw [contentChange?, hget]; exact hstring
            have htext : Script.Grammar.contentText inner.pieces = none := by
              by_contra hne
              have h := hchildren (Option.isSome_iff_ne_none.mpr hne) v hget
              rw [hstring] at h
              cases h
            have hcontentOf : contentOf? ("children", v) = none := by
              rw [contentOf?, if_pos rfl, hstring]
            rw [hchange, htext, Option.bind_some, hcontentOf]
            exact hvalue
      · have hcontentOf : contentOf? (k, v) = none := by rw [contentOf?, if_neg hk]
        rw [hother hk, Option.bind_some, hcontentOf]
        exact hvalue

/-! ### Components around -/

/-- An attribute that is not set stays. -/
lemma partOf?_updatedParts_of_none (hk : ∀ c ∈ changes, c.1 ≠ k) (ps : List Part) :
    partOf? k (updatedParts changes ps) = partOf? k ps := by
  have hset (changes : Fields) (hnone : Fields.get? k changes = none) :
      partOf? k (setParts changes ps) = partOf? k ps := by
    induction ps generalizing changes with
    | nil => rfl
    | cons p ps ih =>
        have hne {v : Value} (hget : Fields.get? p.name changes = some v) : p.name ≠ k := by
          rintro rfl
          rw [hnone] at hget
          cases hget
        rw [setParts, partOf?_cons]
        split
        · next v hget =>
            have hhead : partOf? k (p.set? v).toList = none := by
              refine partOf?_eq_none_iff.mpr fun h => ?_
              obtain ⟨q, hq, hname⟩ := List.mem_map.mp h
              exact hne hget ((name_of_set? (by simpa using hq)).symm.trans hname)
            rw [partOf?_append, hhead, Option.none_or, if_neg (hne hget)]
            exact ih _ (by rw [Fields.get?_erase, if_neg (hne hget), hnone])
        · rw [partOf?_cons, ih changes hnone]
  have hchanges : ∀ c ∈ attributeChanges changes, c.1 ≠ k := fun c hc =>
    hk c (List.mem_of_mem_filter hc)
  have hadded : partOf? k (addedParts (attributeChanges changes) ps) = none := by
    refine partOf?_eq_none_iff.mpr fun h => ?_
    obtain ⟨q, hq, hname⟩ := List.mem_map.mp h
    obtain ⟨c, hc, rfl⟩ := List.mem_map.mp hq
    exact hchanges c (List.mem_of_mem_filter hc) hname
  rw [updatedParts, partOf?_append, hadded, Option.or_none,
    hset _ (Fields.get?_eq_none_iff.mpr hchanges)]

lemma marker?_updated (hmarker : ∀ c ∈ changes, c.1 ≠ marker) (shell : Shell) :
    (shell.updated changes).marker? marker = shell.marker? marker := by
  cases hfragment : shell.isFragment with
  | true =>
      cases shell with
      | fragment => rfl
      | _ => cases hfragment
  | false =>
      have hpart := partOf?_updatedParts_of_none hmarker shell.parts
      rw [partOf?, partOf?] at hpart
      rw [Shell.marker?, parts_updated changes hfragment, hpart, Shell.marker?]

/-- A text takes the place of what stands between the tags of an element only if no component does. -/
lemma components_updated (h : inner.components marker ≠ [] → contentChange? changes = none) :
    (inner.updated changes).components marker = inner.components marker := by
  rw [Passage.updated]
  cases ht : contentChange? changes with
  | none => rfl
  | some t =>
      rw [ht] at h
      by_contra hne
      refine absurd (h fun hnil => hne ?_) (by simp)
      rw [hnil, Passage.components_ofText]

end Markup

namespace Edit

open CanvasSync.Component (idsAll modifyAll?)
open CanvasSync.Markup (Attribute Frame Page Part Passage Shell Style)

variable {p : Page} {style : Style} {id : String} {changes : Fields} {out : Text}

lemma get?_of_contentChange? {t : String} (h : contentChange? changes = some t) :
    Fields.get? "children" changes = some (.string t) := by
  obtain ⟨v, hv, ht⟩ := Option.bind_eq_some_iff.mp h
  cases v <;> simp_all [Value.string?]

/-- **Props set in a source are props merged into a component**: the components of the page that
comes of it are those from before with the update applied to the one of the id. -/
theorem extract_setProps {d : Markup.Document} {cs : List Component} (hp : p.IsProper)
    (hd : document p.text = .ok d) (hcs : extract p.text style = .ok cs)
    (hone : (idsAll cs).count id = 1)
    (hnode : ∀ e ∈ d.entries, e.node.quoted? style.marker = some id →
      (e.node.attributes.map Attribute.name).Nodup
        ∧ (e.node.text.isSome → ∀ v, Fields.get? "children" changes = some v → v.string?.isSome))
    (hkeys : (changes.map Prod.fst).Nodup)
    (hchanges : ∀ c ∈ changes, isAttributeName c.1.toList ∧ c.1 ≠ style.marker ∧ c.2.isPlain
      ∧ c.2.depth ≤ Json.depthLimit)
    (hcontent : ∀ t, Fields.get? "children" changes = some (.string t) →
      Component.isContent (.string t))
    (hroot : p.shell.marker? style.marker = some id → (p.shell.updated changes).Opens)
    (h : setProps p.text id changes style = .ok out) :
    ∃ cs', extract out style = .ok cs'
      ∧ modifyAll? id (Update.ofProps changes).apply cs = some cs' := by
  have hmarker : ∀ c ∈ changes, c.1 ≠ style.marker := fun c hc => (hchanges c hc).2.1
  obtain ⟨f, t, shell, inner, rest, q, hpassage, hid, hq, rfl, hqpassage, hnested, hentry⟩ :=
    exists_setProps hp hkeys hmarker (fun c hc => ⟨(hchanges c hc).1, (hchanges c hc).2.2.1⟩)
      hroot h
  refine ⟨_, Page.extract_text hq style, ?_⟩
  obtain rfl := Except.ok.inj ((Page.extract_text hp style).symm.trans hcs)
  obtain ⟨e, he, o, heq⟩ := hentry d hd
  obtain ⟨hnames, htext⟩ := hnode e he (by rw [heq, Shell.quoted?_node, hid])
  rw [heq] at hnames htext
  have hparts : (shell.parts.map Part.name).Nodup := by
    have hmap := congrArg (List.map Prod.fst)
      (Markup.map_attributesFrom (o + 1 + Text.size shell.name) shell.parts)
    rw [List.map_map, List.map_map] at hmap
    exact (show _ = shell.parts.map Part.name from hmap) ▸ hnames
  have hprops := Markup.props_updated inner
    (Shell.isFragment_of_marker? hid) hparts hkeys hmarker
    (fun c hc => ⟨(hchanges c hc).2.2.1, (hchanges c hc).2.2.2⟩)
    (fun t ht => hcontent t (get?_of_contentChange? ht)) htext
  -- the component of the id is the one in the hole, as its id stands there once
  have hcomponents : (Passage.node t shell inner rest).components style.marker
      = ⟨id, String.ofList shell.name, String.ofList shell.name, shell.props style.marker inner,
          inner.components style.marker, .origin⟩ :: rest.components style.marker := by
    rw [Passage.components, hid]
    rfl
  have hcomponents' : (Passage.node t (shell.updated changes) (inner.updated changes)
        rest).components style.marker
      = ⟨id, String.ofList shell.name, String.ofList shell.name,
          Update.mergeProps (shell.props style.marker inner) changes,
          inner.components style.marker, .origin⟩ :: rest.components style.marker := by
    rw [Passage.components, Markup.marker?_updated hmarker, hid, Markup.name_updated, hprops,
      Markup.components_updated hnested]
    rfl
  rw [hpassage, Frame.components_fill_node, hcomponents] at hone ⊢
  rw [hqpassage, Frame.components_fill_node, hcomponents']
  have haround : id ∉ idsAll (f.nest style.marker []) := by
    rw [Frame.count_idsAll_nest, Component.idsAll_cons, Component.ids_eq, List.cons_append,
      List.count_cons_self] at hone
    exact List.count_eq_zero.mp (by omega)
  refine Frame.modifyAll?_nest haround ?_
  rw [Component.modifyAll?_cons, if_pos rfl]
  rfl

theorem extract_setProps_headingPage :
    let changes : Fields := [("children", .string "Welcome")]
    let title : Component := ⟨"title", "h1", "h1", [("children", .string "Hi")], [], .origin⟩
    let out := ("export default function Home() \x7b\n  return (\n    <main>\n"
      ++ "      <h1 data-component-id=\"title\">Welcome</h1>\n    </main>\n  );\n\x7d\n").toList
    extract headingPage.text .standard = .ok [title]
      ∧ setProps headingPage.text "title" changes .standard = .ok out
      ∧ ∃ cs', extract out .standard = .ok cs'
        ∧ modifyAll? "title" (Update.ofProps changes).apply [title] = some cs' := by
  intro changes title out
  have hextract : extract headingPage.text .standard = .ok [title] :=
    (Page.extract_text isProper_headingPage .standard).trans rfl
  have hset : setProps headingPage.text "title" changes .standard = .ok out := by decide +kernel
  obtain ⟨s, hd, -⟩ := Page.document_text isProper_headingPage
  have hnode : ∀ e ∈ (Markup.Document.ofScript s).entries,
      e.node.quoted? Style.standard.marker = some "title" →
        (e.node.attributes.map Attribute.name).Nodup
          ∧ (e.node.text.isSome → ∀ v, Fields.get? "children" changes = some v →
            v.string?.isSome) := by
    have hall : (document headingPage.text).toOption.all fun d => d.entries.all fun e =>
        decide (e.node.attributes.map Attribute.name).Nodup := by decide +kernel
    rw [hd] at hall
    intro e he _
    refine ⟨by simpa using List.all_eq_true.mp hall e he, fun _ v hv => ?_⟩
    obtain rfl := Option.some.inj hv
    rfl
  have hchanges : ∀ c ∈ changes, isAttributeName c.1.toList ∧ c.1 ≠ Style.standard.marker
      ∧ c.2.isPlain ∧ c.2.depth ≤ Json.depthLimit :=
    List.forall_mem_singleton.mpr ⟨by decide +kernel, by decide, rfl, by decide⟩
  have hcontent (t : String) (ht : Fields.get? "children" changes = some (.string t)) :
      Component.isContent (.string t) := by
    rw [← (Option.some.inj ht : Value.string "Welcome" = .string t)]
    decide
  exact ⟨hextract, hset, extract_setProps isProper_headingPage hd hextract (by decide) hnode
    (by decide) hchanges hcontent (fun h => by cases h) hset⟩

/-- A text taken from a component stays in its element, and blanks at the ends of one that is set do
not come back from the element. -/
theorem extract_setProps_ne :
    let source := "export default () => <p data-component-id=\"x\">Hi</p>;".toList
    let spaced := "export default () => <p data-component-id=\"x\"> Hi </p>;".toList
    let read (t : Text) : Option (List Component) := (extract t .standard).toOption
    let merged (v : Value) : Option (List Component) :=
      (read source).bind (modifyAll? "x" (Update.ofProps [("children", v)]).apply)
    let shown (cs : Option (List Component)) : Option String :=
      (cs.bind (Component.findAll? "x")).bind Component.text?
    setProps source "x" [("children", .null)] .standard = .ok source
      ∧ shown (merged .null) = none ∧ shown (read source) = some "Hi"
      ∧ setProps source "x" [("children", .string " Hi ")] .standard = .ok spaced
      ∧ shown (merged (.string " Hi ")) = some " Hi " ∧ shown (read spaced) = some "Hi" := by
  decide +kernel

end Edit

end CanvasSync
