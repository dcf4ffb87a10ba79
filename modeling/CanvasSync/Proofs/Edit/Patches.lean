import CanvasSync.Edit.Source
import CanvasSync.Proofs.Json.Plain

/-!
The edits that props make in an element.

* `contentChange?`, `attributeChanges`: the text among some props, and the props that are
  attributes;
* `attributeSplice`, `textSplice`: the edit of an attribute, and that of the content;
* `patchEdits`, `editsOf`: the edits that a patch applies, and those of its props: of the attributes
  that the element has, in the order of the props, and of those that it does not have;
* `patchEdits_eq`: these are the same, unless a text would take the place of elements;
* `patch_eq_ok`: a patch applies them;
* `filterMap_attribute?_perm`: the same edits in the order of the attributes (`pick`).
-/

namespace CanvasSync.Edit

open CanvasSync.Json (Fields Value)
open CanvasSync.Markup (Attribute Document Node Style)

variable {source : Text} {style : Style} {node : Node} {changes : Fields}

/-! ### What a prop changes -/

/-- The text that a prop puts into an element, if it does. -/
def contentOf? (c : String × Value) : Option String :=
  if c.1 = "children" then c.2.string? else none

/-- The text that props put into an element, if they do. -/
def contentChange? (changes : Fields) : Option String :=
  (Fields.get? "children" changes).bind Value.string?

/-- The props that are attributes. -/
def attributeChanges (changes : Fields) : Fields := changes.filter fun c => (contentOf? c).isNone

/-- The edit that sets an attribute, or takes it away with the blanks before it. -/
def attributeSplice (source : Text) (v : Value) (a : Attribute) : Splice :=
  if v.isNull then .deletion (Text.size (Text.trimEnd (Text.upTo a.span.start source))) a.span.stop
  else ⟨a.span.start, a.span.stop, Markup.attributeText a.name v⟩

/-- The edit that puts a text into an element. -/
def textSplice (source : Text) (node : Node) (t : String) : Splice :=
  match node.closing with
  | some closing => ⟨node.opening.stop, closing.start, Markup.contentText t.toList⟩
  | none =>
    ⟨Text.size (Text.trimEnd (Text.upTo (node.opening.stop - 2) source)), node.opening.stop,
      '>' :: Markup.contentText t.toList ++ ['<', '/'] ++ node.tag.toList ++ ['>']⟩

/-- The edit that a prop makes in what is there. -/
def spliceOf? (source : Text) (node : Node) (c : String × Value) : Option Splice :=
  match contentOf? c with
  | some t => some (textSplice source node t)
  | none => (node.attribute? c.1).map (attributeSplice source c.2)

/-- What a prop adds to the attributes. -/
def addedBy (node : Node) (c : String × Value) : Text :=
  match contentOf? c with
  | some _ => []
  | none =>
    if (node.attribute? c.1).isSome || c.2.isNull then [] else ' ' :: Markup.attributeText c.1 c.2

/-- A prop other than the marker makes its edit, unless it would put a text in the place of
elements. -/
lemma patchProp_eq {c : String × Value} (hc : c.1 ≠ style.marker) (source : Text) (node : Node)
    (hasElements : Bool) (p : Patch) :
    patchProp source style node hasElements p c
      = if hasElements && (contentOf? c).isSome then .error (.hasElements node.tag)
        else .ok ⟨p.edits ++ (spliceOf? source node c).toList, p.added ++ addedBy node c⟩ := by
  obtain ⟨k, v⟩ := c
  have hcase : contentOf? (k, v) = if k = "children" then v.string? else none := rfl
  rw [patchProp, spliceOf?, addedBy]
  simp only
  rw [if_neg hc, ← hcase]
  cases contentOf? (k, v) with
  | some t =>
      simp only [textEdit]
      cases hasElements with
      | true => rfl
      | false =>
          cases hclosing : node.closing <;> simp [textSplice, hclosing, bind, Except.bind, pure,
            Except.pure]
  | none =>
      cases ha : node.attribute? k with
      | none => cases v.isNull <;> simp
      | some a =>
          have hname : a.name = k := by simpa using List.find?_some ha
          cases hnull : v.isNull <;> simp [hnull, attributeSplice, hname]

/-- A patch, as far as it is gathered, holds the edits of each prop. -/
lemma foldlM_patchProp_eq (hchanges : ∀ c ∈ changes, c.1 ≠ style.marker) (source : Text)
    (node : Node) (hasElements : Bool) (p : Patch) :
    changes.foldlM (patchProp source style node hasElements) p
      = if hasElements && changes.any (fun c => (contentOf? c).isSome) then
          .error (.hasElements node.tag)
        else .ok ⟨p.edits ++ changes.filterMap (spliceOf? source node),
          p.added ++ changes.flatMap (addedBy node)⟩ := by
  induction changes generalizing p with
  | nil => simp [pure, Except.pure]
  | cons c cs ih =>
      rw [List.forall_mem_cons] at hchanges
      rw [List.foldlM_cons, patchProp_eq hchanges.1, List.any_cons, Bool.and_or_distrib_left]
      cases hasElements && (contentOf? c).isSome with
      | true => rfl
      | false =>
          rw [Bool.false_or, if_neg (by simp)]
          refine (ih hchanges.2 _).trans ?_
          cases hs : spliceOf? source node c <;> simp [hs]

/-- A value for the marker is passed over. -/
lemma foldlM_patchProp_filter (source : Text) (style : Style) (node : Node) (hasElements : Bool)
    (changes : Fields) (p : Patch) :
    changes.foldlM (patchProp source style node hasElements) p
      = (changes.filter fun c => c.1 ≠ style.marker).foldlM
          (patchProp source style node hasElements) p := by
  induction changes generalizing p with
  | nil => rfl
  | cons c cs ih =>
      by_cases hc : c.1 = style.marker
      · have hskip : patchProp source style node hasElements p c = .ok p := by
          rw [patchProp]
          simp [hc]
        rw [List.foldlM_cons, hskip, List.filter_cons_of_neg (by simpa using hc), ← ih]
        rfl
      · rw [List.foldlM_cons, List.filter_cons_of_pos (by simpa using hc), List.foldlM_cons]
        exact congrArg _ (funext ih)

lemma patch_filter (source : Text) (d : Document) (i : Nat) (changes : Fields) (style : Style) :
    patch source d i changes style
      = patch source d i (changes.filter fun c => c.1 ≠ style.marker) style := by
  rw [patch, patch, foldlM_patchProp_filter]

/-- The edits that a patch applies. -/
def patchEdits (source : Text) (d : Document) (i : Nat) (props : Fields) (style : Style) :
    Except Fault (List Splice) := do
  let node := nodeAt d i
  let hasElements := (d.entries[i]?).any fun e => !e.children.isEmpty
  let p ← props.foldlM (patchProp source style node hasElements) ⟨[], []⟩
  return if p.added = [] then p.edits else p.edits ++ [.insertion (additionPoint node) p.added]

lemma patch_eq_map (source : Text) (d : Document) (i : Nat) (props : Fields) (style : Style) :
    patch source d i props style
      = (patchEdits source d i props style).map (Splice.applyAll source) := by
  rw [patch, patchEdits]
  cases props.foldlM (patchProp source style (nodeAt d i)
    ((d.entries[i]?).any fun e => !e.children.isEmpty)) ⟨[], []⟩ <;> rfl

lemma patchEdits_filter (source : Text) (d : Document) (i : Nat) (changes : Fields)
    (style : Style) :
    patchEdits source d i changes style
      = patchEdits source d i (changes.filter fun c => c.1 ≠ style.marker) style := by
  rw [patchEdits, patchEdits, foldlM_patchProp_filter]

/-- The edits of props, and behind the last attribute the attributes that the element does not
have. -/
def editsOf (source : Text) (node : Node) (changes : Fields) : List Splice :=
  changes.filterMap (spliceOf? source node)
    ++ if changes.flatMap (addedBy node) = [] then []
      else [.insertion (additionPoint node) (changes.flatMap (addedBy node))]

/-- The edits of a patch are those of its props, unless one of them would put a text in the place of
elements. -/
lemma patchEdits_eq {d : Document} {i : Nat} (hchanges : ∀ c ∈ changes, c.1 ≠ style.marker)
    (source : Text) :
    patchEdits source d i changes style
      = if (d.entries[i]?).any (fun e => !e.children.isEmpty)
          && changes.any (fun c => (contentOf? c).isSome) then
          .error (.hasElements (nodeAt d i).tag)
        else .ok (editsOf source (nodeAt d i) changes) := by
  rw [patchEdits, foldlM_patchProp_eq hchanges, editsOf]
  split
  · rfl
  · simp only [bind, Except.bind, pure, Except.pure, List.nil_append]
    split_ifs <;> simp

/-- **A patch applies the edits of its props**, and behind the last attribute those attributes that
the element does not have. A text is put into an element only if nothing is nested in it. -/
theorem patch_eq_ok {d : Document} {i : Nat} {out : Text} (hnode : nodeAt d i = node)
    (hchanges : ∀ c ∈ changes, c.1 ≠ style.marker) (h : patch source d i changes style = .ok out) :
    out = Splice.applyAll source (changes.filterMap (spliceOf? source node)
        ++ if changes.flatMap (addedBy node) = [] then []
          else [.insertion (additionPoint node) (changes.flatMap (addedBy node))])
      ∧ ((d.entries[i]?).any (fun e => !e.children.isEmpty) = true →
        ∀ c ∈ changes, contentOf? c = none) := by
  rw [patch_eq_map, patchEdits_eq hchanges, hnode] at h
  split at h
  · cases h
  · next hnone =>
      refine ⟨(Except.ok.inj h).symm, fun hnested c hc => ?_⟩
      rw [hnested, Bool.true_and] at hnone
      simpa using fun hsome => hnone (List.any_eq_true.mpr ⟨c, hc, hsome⟩)

/-! ### Edits in the order of the attributes -/

/-- Of props with distinct keys one at most is text. -/
lemma filterMap_contentOf? (hkeys : (changes.map Prod.fst).Nodup) :
    changes.filterMap contentOf? = (contentChange? changes).toList := by
  induction changes with
  | nil => rfl
  | cons c cs ih =>
      obtain ⟨hc, hcs⟩ := List.nodup_cons.mp hkeys
      rw [List.filterMap_cons, contentChange?, Fields.get?]
      by_cases hkey : c.1 = "children"
      · have hrest : cs.filterMap contentOf? = [] := by
          rw [List.filterMap_eq_nil_iff]
          intro d hd
          refine if_neg fun hchildren => hc ?_
          exact List.mem_map.mpr ⟨d, hd, hchildren.trans hkey.symm⟩
        rw [if_pos hkey, contentOf?, if_pos hkey, hrest, Option.bind_some]
        cases c.2.string? <;> rfl
      · rw [if_neg hkey, contentOf?, if_neg hkey, ih hcs]
        rfl

lemma any_contentOf? (hkeys : (changes.map Prod.fst).Nodup) :
    changes.any (fun c => (contentOf? c).isSome) = (contentChange? changes).isSome := by
  have hlist := filterMap_contentOf? hkeys
  rw [Bool.eq_iff_iff, List.any_eq_true]
  cases hcontent : contentChange? changes with
  | none =>
      rw [hcontent, Option.toList_none, List.filterMap_eq_nil_iff] at hlist
      simp_all
  | some t =>
      have ht : t ∈ changes.filterMap contentOf? := by simp [hlist, hcontent]
      obtain ⟨c, hc, hsome⟩ := List.mem_filterMap.mp ht
      exact ⟨fun _ => rfl, fun _ => ⟨c, hc, by rw [hsome]; rfl⟩⟩

/-- The edits of props are those of the attributes and that of the text. -/
lemma filterMap_spliceOf?_perm (source : Text) (node : Node)
    (hkeys : (changes.map Prod.fst).Nodup) :
    (changes.filterMap (spliceOf? source node)).Perm
      (((attributeChanges changes).filterMap fun c =>
          (node.attribute? c.1).map (attributeSplice source c.2))
        ++ (contentChange? changes).toList.map (textSplice source node)) := by
  have hattributes : (attributeChanges changes).filterMap (spliceOf? source node)
      = (attributeChanges changes).filterMap fun c =>
        (node.attribute? c.1).map (attributeSplice source c.2) := by
    refine List.filterMap_congr fun c hc => ?_
    have hnone : contentOf? c = none := by simpa using List.of_mem_filter hc
    rw [spliceOf?, hnone]
  have htext : (changes.filter fun c => !(contentOf? c).isNone).filterMap (spliceOf? source node)
      = (contentChange? changes).toList.map (textSplice source node) := by
    rw [← filterMap_contentOf? hkeys, List.map_filterMap, List.filterMap_filter]
    refine List.filterMap_congr fun c _ => ?_
    cases h : contentOf? c <;> simp [spliceOf?, h]
  rw [← hattributes, ← htext, ← List.filterMap_append]
  exact (List.filter_append_perm _ changes).symm.filterMap _

/-- What attributes and the values under their names come to, in the order of the attributes: a value
counts for the first attribute of its name. -/
def pick {β : Type} (f : Value → Attribute → β) : Fields → List Attribute → List β
  | _, [] => []
  | fields, a :: as =>
    match Fields.get? a.name fields with
    | some v => f v a :: pick f (Fields.erase a.name fields) as
    | none => pick f fields as

/-- The values under the names of attributes are the attributes under the keys of values: what the
two come to is the same but for its order. -/
lemma filterMap_attribute?_perm {β : Type} {fields : Fields} {attributes : List Attribute}
    (hkeys : (fields.map Prod.fst).Nodup) (f : Value → Attribute → β) :
    (fields.filterMap fun c => (attributes.find? fun a => a.name = c.1).map (f c.2)).Perm
      (pick f fields attributes) := by
  induction attributes generalizing fields with
  | nil =>
      have hnone : (fields.filterMap fun c =>
          (([] : List Attribute).find? fun a => a.name = c.1).map (f c.2)) = [] := by
        simp
      rw [hnone]
      exact .refl _
  | cons a as ih =>
      -- the other names are found behind `a`
      have hother (cs : Fields) (hcs : ∀ c ∈ cs, c.1 ≠ a.name) :
          (cs.filterMap fun c => ((a :: as).find? fun a => a.name = c.1).map (f c.2))
            = cs.filterMap fun c => (as.find? fun a => a.name = c.1).map (f c.2) :=
        List.filterMap_congr fun c hc => by
          rw [List.find?_cons_of_neg (by simpa using Ne.symm (hcs c hc))]
      rw [pick]
      cases hget : Fields.get? a.name fields with
      | none =>
          rw [hother fields (Fields.get?_eq_none_iff.mp hget)]
          exact ih hkeys
      | some v =>
          have hrest : ∀ c ∈ Fields.erase a.name fields, c.1 ≠ a.name := fun c hc => by
            simpa using List.of_mem_filter hc
          have hfirst := ((Fields.perm_cons_erase hkeys hget).filterMap fun c =>
            ((a :: as).find? fun a => a.name = c.1).map (f c.2))
          rw [List.filterMap_cons, List.find?_cons_of_pos (by simp), Option.map_some,
            hother _ hrest] at hfirst
          exact hfirst.trans (.cons _ (ih (hkeys.sublist (List.filter_sublist.map _))))

/-- Among attributes with distinct names a value counts for every attribute of its name. -/
lemma pick_eq_filterMap {β : Type} (f : Value → Attribute → β) {fields : Fields}
    {attributes : List Attribute} (hnames : (attributes.map Attribute.name).Nodup) :
    pick f fields attributes
      = attributes.filterMap fun a => (Fields.get? a.name fields).map fun v => f v a := by
  induction attributes generalizing fields with
  | nil => rfl
  | cons a as ih =>
      obtain ⟨ha, has⟩ := List.nodup_cons.mp hnames
      rw [pick]
      cases hget : Fields.get? a.name fields with
      | none =>
          rw [List.filterMap_cons, hget]
          exact ih has
      | some v =>
          have hother : (as.filterMap fun b =>
              (Fields.get? b.name (Fields.erase a.name fields)).map fun v => f v b)
                = as.filterMap fun b => (Fields.get? b.name fields).map fun v => f v b := by
            refine List.filterMap_congr fun b hb => ?_
            have hne : a.name ≠ b.name := fun h => ha (h ▸ List.mem_map_of_mem hb)
            rw [Fields.get?_erase, if_neg hne]
          rw [List.filterMap_cons, hget, ih has, hother]
          rfl

end CanvasSync.Edit
