import CanvasSync.Proofs.Edit.Places
import CanvasSync.Proofs.Edit.Sites

/-!
A source with the props of one of its elements set.

* `attributesSet`, `attributesAdded`, `contentSet`: what becomes of the attributes of an element,
  what is added to them, and what becomes of the text behind them;
* `rewritten`: the source with these, and all else as it was;
* `AttributeSegments`, `RestSegments`: the stretches of the source that change, and their edits;
* `patch_eq_rewritten`: a patch gives this source by edits that do not overlap.
-/

namespace CanvasSync.Edit

open CanvasSync.Json (Fields Value)
open CanvasSync.Markup (Attribute AttributesLaid Document Entry Node Style attributeText
  contentText)
open CanvasSync.Text (endsSolid size slice trimEnd)

/-! ### The source rewritten -/

/-- The text from an offset to the end of some attributes, with values set under their names: null
takes an attribute away with the blanks before it. -/
def attributesSet (source : Text) (changes : Fields) : Nat → List Attribute → Text
  | _, [] => []
  | o, a :: as =>
    let gap := slice o a.span.start source
    (match Fields.get? a.name changes with
      | none => gap ++ Text.covered source a.span
      | some v => if v.isNull then trimEnd gap else gap ++ attributeText a.name v)
      ++ attributesSet source changes a.span.stop as

/-- The values other than null that an element has no attributes for, as attributes. -/
def attributesAdded (node : Node) (changes : Fields) : Text :=
  (changes.filter fun c => !(node.attribute? c.1).isSome && !c.2.isNull).flatMap fun c =>
    ' ' :: attributeText c.1 c.2

/-- The text behind the attributes of an element, with a text put into the element: in the place of
its content, or between tags that a tag which closes itself is opened to. -/
def contentSet (source : Text) (node : Node) (content : Option String) : Text :=
  let o := additionPoint node
  match content with
  | none => Text.fromOffset o source
  | some t =>
    match node.closing with
    | some closing =>
      slice o node.opening.stop source ++ contentText t.toList
        ++ Text.fromOffset closing.start source
    | none =>
      trimEnd (slice o (node.opening.stop - 2) source) ++ '>' :: contentText t.toList
        ++ ['<', '/'] ++ node.tag.toList ++ ['>'] ++ Text.fromOffset node.opening.stop source

/-- A source with the props of an element set. -/
def rewritten (source : Text) (node : Node) (changes : Fields) : Text :=
  let o := node.opening.start + 1 + size node.tag.toList
  Text.upTo o source ++ (attributesSet source (attributeChanges changes) o node.attributes
    ++ (attributesAdded node (attributeChanges changes)
      ++ contentSet source node (contentChange? changes)))

variable {source before behind : Text} {changes : Fields} {a : Attribute} {as : List Attribute}
  {segments : List Segment} {stop : Nat}

/-! ### The stretches of attributes -/

/-- The end of the last one of some attributes that stand behind an offset. -/
def lastStop : Nat → List Attribute → Nat
  | o, [] => o
  | _, a :: as => lastStop a.span.stop as

lemma lastStop_eq (o : Nat) (as : List Attribute) :
    lastStop o as = (as.getLast?.map fun a => a.span.stop).getD o := by
  induction as generalizing o with
  | nil => rfl
  | cons a as ih =>
      rw [lastStop, ih, List.getLast?_cons]
      cases as.getLast? <;> rfl

lemma additionPoint_eq (node : Node) : additionPoint node
    = lastStop (node.opening.start + 1 + size node.tag.toList) node.attributes := by
  rw [additionPoint, lastStop_eq]
  cases node.attributes.getLast? <;> rfl

/-- Stretches of a source from the end of a text on, which are those of attributes with values
set. -/
structure AttributeSegments (source : Text) (changes : Fields) (before : Text)
    (as : List Attribute) (segments : List Segment) (behind : Text) : Prop where
  source_eq : source = before ++ (oldText segments ++ behind)
  solid : endsSolid (before ++ oldText segments)
  stop_eq : size (before ++ oldText segments) = lastStop (size before) as
  new_eq : newText segments = attributesSet source changes (size before) as
  splices_eq : splicesFrom (size before) segments = as.filterMap fun a =>
    (Fields.get? a.name changes).map fun v => attributeSplice source v a
  ne_nil : ∀ t u, Segment.changed t u ∈ segments → t ≠ []

/-- The stretches of an attribute `w` and the gap before it. -/
def attributeSegments (changes : Fields) (gap w : Text) (a : Attribute) : List Segment :=
  match Fields.get? a.name changes with
  | none => [.kept (gap ++ w)]
  | some v =>
    if v.isNull then [.kept (trimEnd gap), .changed (gap.drop (trimEnd gap).length ++ w) []]
    else [.kept gap, .changed w (attributeText a.name v)]

lemma trimEnd_append_drop (gap : Text) : trimEnd gap ++ gap.drop (trimEnd gap).length = gap := by
  have hdrop (x u : Text) (h : gap = x ++ u) : x ++ gap.drop x.length = gap := by
    rw [h, List.drop_left]
  obtain ⟨u, hu, -⟩ := Text.exists_eq_trimEnd_append gap
  exact hdrop _ u hu

lemma oldText_attributeSegments (changes : Fields) (gap w : Text) (a : Attribute) :
    oldText (attributeSegments changes gap w a) = gap ++ w := by
  rw [attributeSegments]
  split
  · simp [Segment.old]
  · split
    · simp [Segment.old, ← List.append_assoc, trimEnd_append_drop]
    · simp [Segment.old]

variable {gap w : Text}

lemma ne_nil_of_mem_attributeSegments {t u : Text} (hw : w ≠ [])
    (h : Segment.changed t u ∈ attributeSegments changes gap w a) : t ≠ [] := by
  rw [attributeSegments] at h
  split at h
  · simp at h
  · split at h <;> simp_all

/-- What becomes of a gap and an attribute. -/
lemma attributesSet_cons (hsource : source = before ++ (gap ++ w) ++ behind)
    (hspan : a.span = ⟨size (before ++ gap), size (before ++ (gap ++ w))⟩) :
    attributesSet source changes (size before) (a :: as)
      = newText (attributeSegments changes gap w a)
        ++ attributesSet source changes (size (before ++ (gap ++ w))) as := by
  have hgap : slice (size before) a.span.start source = gap := by
    rw [hspan, hsource]
    simpa using Text.slice_append before gap (w ++ behind)
  have hcovered : Text.covered source a.span = w := by
    rw [hspan, hsource]
    simpa [Text.covered, Nat.add_assoc] using Text.slice_append (before ++ gap) w behind
  have hstop : a.span.stop = size (before ++ (gap ++ w)) := by rw [hspan]
  rw [attributesSet, hgap, hcovered, hstop, attributeSegments]
  cases Fields.get? a.name changes with
  | none => simp [Segment.new]
  | some v => cases hnull : v.isNull <;> simp [Segment.new, hnull]

/-- The edit of an attribute is that of its stretch. -/
lemma splicesFrom_attributeSegments (hsource : source = before ++ (gap ++ w) ++ behind)
    (hspan : a.span = ⟨size (before ++ gap), size (before ++ (gap ++ w))⟩)
    (hbefore : endsSolid before) :
    splicesFrom (size before) (attributeSegments changes gap w a)
      = ((Fields.get? a.name changes).map fun v => attributeSplice source v a).toList := by
  have htrim : trimEnd (Text.upTo a.span.start source) = before ++ trimEnd gap := by
    have hparts : source = (before ++ gap) ++ (w ++ behind) := by simp [hsource]
    rw [hspan, hparts, Text.upTo_size_append, Text.trimEnd_append_of_endsSolid hbefore]
  have hstart : a.span.start = size before + size gap := by rw [hspan, Text.size_append]
  have hstop : a.span.stop = size before + size gap + size w := by
    rw [hspan]
    simp [Nat.add_assoc]
  have hwhole := congrArg size (trimEnd_append_drop gap)
  rw [Text.size_append] at hwhole
  rw [attributeSegments]
  cases Fields.get? a.name changes with
  | none => rfl
  | some v =>
      cases hnull : v.isNull
      · simp [attributeSplice, splicesFrom, hnull, hstart, hstop]
      · simp [attributeSplice, splicesFrom, hnull, htrim, hstop, Splice.deletion]
        omega

/-- Attributes that stand in order behind a text are stretches of the source. -/
lemma exists_attributeSegments {y : Text} (hsource : source = before ++ y)
    (hbefore : endsSolid before) (hlaid : AttributesLaid source (size before) as stop)
    (changes : Fields) :
    ∃ segments behind, AttributeSegments source changes before as segments behind := by
  induction as generalizing before y with
  | nil => exact ⟨[], y, ⟨hsource, by simpa using hbefore, by simp [lastStop], rfl, rfl, by simp⟩⟩
  | cons a as ih =>
      obtain ⟨hstart, ⟨w, ⟨x, z, hx, hspan⟩, hw⟩, hrest⟩ := hlaid
      rw [List.append_assoc] at hx
      obtain ⟨gap, rfl, rfl⟩ := Text.exists_eq_append_of_size_le (hsource.symm.trans hx)
        (by simpa [hspan] using hstart)
      have hsource' : source = before ++ (gap ++ w) ++ z := by simp [hx]
      have hspan' : a.span = ⟨size (before ++ gap), size (before ++ (gap ++ w))⟩ := by
        simpa [Nat.add_assoc] using hspan
      have hsolid : endsSolid (before ++ (gap ++ w)) :=
        Text.endsSolid_append before (Text.endsSolid_append gap hw)
      rw [hspan'] at hrest
      obtain ⟨segments, behind, h⟩ := ih hsource' hsolid hrest
      have hold := oldText_attributeSegments changes gap w a
      refine ⟨attributeSegments changes gap w a ++ segments, behind, ?_, ?_, ?_, ?_, ?_, ?_⟩
      · rw [oldText_append, hold, List.append_assoc, ← List.append_assoc before]
        exact h.source_eq
      · rw [oldText_append, hold, ← List.append_assoc]
        exact h.solid
      · rw [oldText_append, hold, ← List.append_assoc, h.stop_eq, lastStop, hspan']
      · rw [newText_append, h.new_eq, attributesSet_cons hsource' hspan']
      · rw [splicesFrom_append, hold, ← Text.size_append, h.splices_eq, List.filterMap_cons,
          splicesFrom_attributeSegments hsource' hspan' hbefore]
        cases Fields.get? a.name changes <;> rfl
      · intro t u hmem
        rcases List.mem_append.mp hmem with hmem | hmem
        · exact ne_nil_of_mem_attributeSegments (Text.ne_nil_of_endsSolid hw) hmem
        · exact h.ne_nil t u hmem

/-! ### The stretches behind the attributes -/

/-- Stretches of a source from the end of a text on, which are those of the content of an element
with a text put into it. -/
structure RestSegments (source : Text) (node : Node) (content : Option String) (before : Text)
    (segments : List Segment) : Prop where
  source_eq : source = before ++ oldText segments
  new_eq : newText segments = contentSet source node content
  splices_eq : splicesFrom (size before) segments = content.toList.map (textSplice source node)
  lt_stop : ∀ e ∈ splicesFrom (size before) segments, size before < e.stop

variable {node : Node}

/-- A text takes the place of the content between the tags of an element. -/
lemma restSegments_of_closing {closing : Span} {y : Text} (hnode : node.IsLaid source)
    (hclosing : node.closing = some closing) (hsource : source = before ++ y)
    (hpoint : additionPoint node = size before) (hstop : size before < node.opening.stop)
    (t : String) : ∃ segments, RestSegments source node (some t) before segments := by
  obtain ⟨hle, w', ⟨x', z', hx', rfl⟩, -⟩ := hnode.closing closing hclosing
  obtain ⟨w, ⟨x, z, hx, hopening⟩, -⟩ := hnode.opening
  have hopening' : node.opening.stop = size (x ++ w) := by rw [hopening, Text.size_append]
  obtain ⟨r, hr, rfl⟩ := Text.exists_eq_append_of_size_le (hsource.symm.trans hx)
    (by rw [← hopening']; exact hstop.le)
  rw [hr] at hopening' hx
  rw [hopening'] at hle
  rw [List.append_assoc] at hx'
  obtain ⟨m, rfl, rfl⟩ := Text.exists_eq_append_of_size_le (hx.symm.trans hx') hle
  have hslice : slice (size before) (size (before ++ r)) source = r := by
    rw [hx]
    simpa using Text.slice_append before r (m ++ (w' ++ z'))
  have hbehind : Text.fromOffset (size (before ++ r ++ m)) source = w' ++ z' := by
    rw [hx, ← List.append_assoc, Text.fromOffset_size_append]
  refine ⟨[.kept r, .changed m (contentText t.toList), .kept (w' ++ z')], ?_, ?_, ?_, ?_⟩
  · simpa [Segment.old] using hx
  · simp only [contentSet, hclosing, hpoint, hopening', hslice, hbehind]
    simp [Segment.new]
  · simp [splicesFrom, textSplice, hclosing, hopening', Nat.add_assoc]
  · rw [hopening', Text.size_append] at hstop
    simp only [splicesFrom, List.mem_singleton, forall_eq]
    omega

/-- A tag that closes itself is opened for a text. -/
lemma restSegments_of_selfClosing {y : Text} (hnode : node.IsLaid source)
    (hclosing : node.closing = none) (hsource : source = before ++ y) (hbefore : endsSolid before)
    (hpoint : additionPoint node = size before) (hstop : size before + 2 ≤ node.opening.stop)
    (hself : Text.endsWith (Text.covered source node.opening) ['/', '>']) (t : String) :
    ∃ segments, RestSegments source node (some t) before segments := by
  obtain ⟨w, ⟨x, z, hx, hopening⟩, -⟩ := hnode.opening
  have hcovered : Text.covered source node.opening = w := by
    rw [hx, hopening]
    exact Text.slice_append x w z
  rw [hcovered] at hself
  obtain ⟨u, rfl⟩ := Text.exists_eq_append_of_endsWith hself
  have hsign : size ['/', '>'] = 2 := rfl
  have hopening' : node.opening.stop = size (x ++ u) + 2 := by
    rw [hopening]
    simp only [Text.size_append, hsign]
    omega
  have hparts : source = (x ++ u) ++ (['/', '>'] ++ z) := by simp [hx]
  obtain ⟨r, hr, rfl⟩ := Text.exists_eq_append_of_size_le (hsource.symm.trans hparts) (by omega)
  rw [hr] at hopening' hparts
  have hslice : slice (size before) (node.opening.stop - 2) source = r := by
    rw [hopening', hparts, Nat.add_sub_cancel, Text.size_append]
    exact Text.slice_append before r _
  have htrim : trimEnd (Text.upTo (node.opening.stop - 2) source) = before ++ trimEnd r := by
    rw [hopening', hparts, Nat.add_sub_cancel, Text.upTo_size_append,
      Text.trimEnd_append_of_endsSolid hbefore]
  have hbehind : Text.fromOffset node.opening.stop source = z := by
    have hstop' : node.opening.stop = size (before ++ r ++ ['/', '>']) := by
      rw [hopening', Text.size_append (before ++ r), hsign]
    rw [hstop', hparts, ← List.append_assoc, Text.fromOffset_size_append]
  have hwhole := congrArg size (trimEnd_append_drop r)
  rw [Text.size_append] at hwhole
  rw [Text.size_append] at hopening'
  refine ⟨[.kept (trimEnd r), .changed (r.drop (trimEnd r).length ++ ['/', '>'])
    ('>' :: contentText t.toList ++ ['<', '/'] ++ node.tag.toList ++ ['>']), .kept z],
    ?_, ?_, ?_, ?_⟩
  · rw [hparts]
    conv_lhs => rw [← trimEnd_append_drop r]
    simp [Segment.old]
  · simp only [contentSet, hclosing, hpoint, hslice, hbehind]
    simp [Segment.new]
  · simp [splicesFrom, textSplice, hclosing, htrim, hsign]
    omega
  · simp only [splicesFrom, List.mem_singleton, forall_eq, Text.size_append, hsign]
    omega

lemma exists_restSegments {y : Text} (hnode : node.IsLaid source) (hsource : source = before ++ y)
    (hbefore : endsSolid before) (hpoint : additionPoint node = size before)
    (hstop : size before + (if node.selfClosing then 2 else 1) ≤ node.opening.stop)
    (hself : node.selfClosing → Text.endsWith (Text.covered source node.opening) ['/', '>'])
    (content : Option String) : ∃ segments, RestSegments source node content before segments := by
  cases content with
  | none =>
      refine ⟨[.kept y], by simpa [Segment.old] using hsource, ?_, rfl, by simp [splicesFrom]⟩
      simp [contentSet, hpoint, hsource, Segment.new]
  | some t =>
      cases hclosing : node.closing with
      | some closing =>
          have hopen : node.selfClosing = false := by rw [Node.selfClosing, hclosing]; rfl
          rw [hopen, if_neg (by simp)] at hstop
          exact restSegments_of_closing hnode hclosing hsource hpoint hstop t
      | none =>
          have hclosed : node.selfClosing = true := by rw [Node.selfClosing, hclosing]; rfl
          rw [if_pos hclosed] at hstop
          exact restSegments_of_selfClosing hnode hclosing hsource hbefore hpoint hstop
            (hself hclosed) t

/-! ### All stretches -/

lemma lastStop_le {o : Nat} (h : AttributesLaid source o as stop) : lastStop o as ≤ stop := by
  induction as generalizing o with
  | nil => exact h
  | cons a as ih => exact ih h.2.2

lemma flatMap_addedBy_eq (node : Node) (changes : Fields) :
    changes.flatMap (addedBy node) = attributesAdded node (attributeChanges changes) := by
  induction changes with
  | nil => rfl
  | cons c cs ih =>
      rw [List.flatMap_cons, ih, addedBy, attributesAdded, attributesAdded]
      cases hcontent : contentOf? c with
      | some t =>
          have hskip : attributeChanges (c :: cs) = attributeChanges cs :=
            List.filter_cons_of_neg (by simp [hcontent])
          rw [hskip]
          rfl
      | none =>
          have hkept : attributeChanges (c :: cs) = c :: attributeChanges cs :=
            List.filter_cons_of_pos (by simp [hcontent])
          rw [hkept, List.filter_cons]
          cases (node.attribute? c.1).isSome <;> cases c.2.isNull <;> simp

/-- The edits of props are those of the attributes, what is added to them, and that of the text. -/
lemma editsOf_perm (source : Text) (hnames : (node.attributes.map Attribute.name).Nodup)
    (hkeys : (changes.map Prod.fst).Nodup) :
    (editsOf source node changes).Perm
      ((node.attributes.filterMap fun a =>
          (Fields.get? a.name (attributeChanges changes)).map fun v => attributeSplice source v a)
        ++ (splicesFrom (additionPoint node)
              (additions (attributesAdded node (attributeChanges changes)))
            ++ (contentChange? changes).toList.map (textSplice source node))) := by
  have hkeys' : ((attributeChanges changes).map Prod.fst).Nodup :=
    hkeys.sublist (List.filter_sublist.map _)
  have hattributes := @filterMap_attribute?_perm _ _ node.attributes hkeys' (attributeSplice source)
  rw [pick_eq_filterMap _ hnames] at hattributes
  have hadded : splicesFrom (additionPoint node)
      (additions (attributesAdded node (attributeChanges changes)))
        = if changes.flatMap (addedBy node) = [] then []
          else [.insertion (additionPoint node) (changes.flatMap (addedBy node))] := by
    rw [flatMap_addedBy_eq, additions]
    split <;> rfl
  rw [editsOf, ← hadded]
  refine (((filterMap_spliceOf?_perm source node hkeys).trans
    (hattributes.append_right _)).append_right _).trans ?_
  rw [List.append_assoc]
  exact List.Perm.append_left _ List.perm_append_comm

/-- The text before the attributes of an element: its sign and its tag. -/
lemma exists_eq_append_tag (hnode : node.IsLaid source)
    (htag : Text.startsWith (Text.fromOffset node.opening.start source) ('<' :: node.tag.toList)) :
    ∃ before y, source = before ++ y ∧ endsSolid before
      ∧ size before = node.opening.start + 1 + size node.tag.toList := by
  obtain ⟨w, ⟨x, z, hx, hopening⟩, -⟩ := hnode.opening
  rw [hopening, hx, List.append_assoc, Text.fromOffset_size_append] at htag
  obtain ⟨y, hy⟩ := Option.isSome_iff_exists.mp htag
  have hless : '<'.utf8Size = 1 := rfl
  refine ⟨x ++ '<' :: node.tag.toList, y, ?_, Text.endsSolid_append x ?_, ?_⟩
  · rw [hx, List.append_assoc, Text.eq_of_strip? hy, List.append_assoc]
  · rcases hnode.tag with hnil | hsolid
    · rw [hnil]
      decide
    · exact Text.endsSolid_append ['<'] hsolid
  · rw [hopening, Text.size_append, Text.size_cons, hless, Nat.add_assoc]

variable (hnode : node.IsLaid source) (hnames : (node.attributes.map Attribute.name).Nodup)
  (htag : Text.startsWith (Text.fromOffset node.opening.start source) ('<' :: node.tag.toList))
  (hself : node.selfClosing → Text.endsWith (Text.covered source node.opening) ['/', '>'])
  (hkeys : (changes.map Prod.fst).Nodup)
include hnode hnames htag hself hkeys

/-- The edits of an element are those of stretches of the source, in the order of the text. -/
lemma exists_segments :
    ∃ segments, oldText segments = source ∧ newText segments = rewritten source node changes
      ∧ (editsOf source node changes).Perm (splicesFrom 0 segments)
      ∧ (splicesFrom 0 segments).Pairwise Splice.precedes := by
  obtain ⟨before, y, hsource, hbefore, hsize⟩ := exists_eq_append_tag hnode htag
  obtain ⟨stop, hlaid, hstop⟩ := hnode.attributes
  rw [rewritten, ← hsize]
  rw [← hsize] at hlaid
  obtain ⟨attributes, behind, hattributes⟩ :=
    exists_attributeSegments hsource hbefore hlaid (attributeChanges changes)
  have hpoint : additionPoint node = size (before ++ oldText attributes) := by
    rw [additionPoint_eq, ← hsize, hattributes.stop_eq]
  have hle := lastStop_le hlaid
  rw [← hattributes.stop_eq] at hle
  obtain ⟨rest, hrest⟩ := exists_restSegments hnode
    (hattributes.source_eq.trans (List.append_assoc ..).symm) hattributes.solid hpoint (by omega)
    hself (contentChange? changes)
  have hordered : (splicesFrom (additionPoint node) rest).Pairwise Splice.precedes := by
    rw [hpoint, hrest.splices_eq]
    cases contentChange? changes <;> simp
  set added := attributesAdded node (attributeChanges changes) with hadded
  have hsplices : splicesFrom 0 (.kept before :: (attributes ++ (additions added ++ rest)))
      = splicesFrom (size before) attributes
        ++ (splicesFrom (additionPoint node) (additions added)
          ++ splicesFrom (additionPoint node) rest) := by
    simp [splicesFrom, splicesFrom_append, oldText_additions, hpoint]
  refine ⟨.kept before :: (attributes ++ (additions added ++ rest)), ?_, ?_, ?_, ?_⟩
  · simpa [Segment.old, oldText_additions] using hrest.source_eq.symm
  · have hupTo : Text.upTo (size before) source = before := by rw [hsource, Text.upTo_size_append]
    simp [Segment.new, newText_additions, hattributes.new_eq, hrest.new_eq, hupTo]
  · rw [hsplices, hattributes.splices_eq]
    refine (editsOf_perm source hnames hkeys).trans ?_
    rw [hpoint, hrest.splices_eq]
  · rw [splicesFrom, Nat.zero_add]
    rw [hpoint, Text.size_append] at hordered
    refine pairwise_precedes_additions _ hattributes.ne_nil hordered fun e he => ?_
    rw [← Text.size_append] at he ⊢
    exact hrest.lt_stop e he

omit hnode hnames htag hself hkeys

/-! ### A patch -/

/-- **A patch rewrites an element as its props ask for**, by edits between boundaries of the source
that do not overlap, and fails only where a text would take the place of elements. Its attributes
have distinct names, its tag follows the less-than sign, and it ends with a slash and the
greater-than sign if it closes itself. -/
theorem patch_eq_rewritten {d : Document} {i : Nat} {e : Entry} {props : Fields} {style : Style}
    (hdocument : document source = .ok d) (hentry : d.entries[i]? = some e)
    (hnames : (e.node.attributes.map Attribute.name).Nodup)
    (htag : Text.startsWith (Text.fromOffset e.node.opening.start source)
      ('<' :: e.node.tag.toList))
    (hself : e.node.selfClosing → Text.endsWith (Text.covered source e.node.opening) ['/', '>'])
    (hkeys : (props.map Prod.fst).Nodup) :
    let changes := props.filter fun c => c.1 ≠ style.marker
    let displaces := e.children ≠ [] ∧ (contentChange? changes).isSome
    (displaces → patch source d i props style = .error (.hasElements e.node.tag))
      ∧ (¬displaces → ∃ edits, patchEdits source d i props style = .ok edits
        ∧ (∀ s ∈ edits, s.InBounds source) ∧ edits.Pairwise Splice.Apart
        ∧ patch source d i props style = .ok (rewritten source e.node changes)) := by
  intro changes displaces
  have hmarker : ∀ c ∈ changes, c.1 ≠ style.marker := fun c hc => by
    simpa using List.of_mem_filter hc
  have hkeys' : (changes.map Prod.fst).Nodup := hkeys.sublist (List.filter_sublist.map _)
  have hnested : ((d.entries[i]?).any fun e => !e.children.isEmpty) = decide (e.children ≠ []) := by
    rw [hentry]
    cases h : e.children <;> simp [h]
  have hedits : patchEdits source d i props style
      = if decide (e.children ≠ []) && (contentChange? changes).isSome then
          .error (.hasElements e.node.tag) else .ok (editsOf source e.node changes) := by
    rw [patchEdits_filter, patchEdits_eq hmarker, nodeAt_eq hentry, hnested,
      any_contentOf? hkeys']
  rw [patch_eq_map, hedits]
  constructor
  · intro h
    rw [if_pos (by simpa [displaces] using h)]
    rfl
  · intro h
    rw [if_neg (by simpa [displaces] using h)]
    have hlaid := (isLaid_of_document hdocument).nodes e (List.mem_of_getElem? hentry)
    obtain ⟨segments, hold, hnew, hperm, hordered⟩ :=
      exists_segments hlaid hnames htag hself hkeys'
    refine ⟨_, rfl, fun s hs => ?_, ?_, congrArg Except.ok ?_⟩
    · rw [← hold]
      exact inBounds_of_mem_splicesFrom [] (hperm.subset hs)
    · exact (hperm.pairwise_iff fun h => Or.symm h).mpr (pairwise_apart_splicesFrom 0 segments)
    · rw [← hnew, ← applyAll_segments hperm hordered, hold]

/-- A button with three attributes. -/
def buttonSource : Text :=
  "<Button data-component-id='up' variant=\"primary\" disabled>Save</Button>".toList

/-- Props for a button that set, take away and add an attribute, and change its text. -/
def buttonProps : Fields :=
  [("children", .string "Done"), ("data-component-id", .string "down"), ("disabled", .null),
    ("size", .number (.whole 2)), ("variant", .string "ghost")]

/-- The one entry of the index of this source. -/
def buttonEntry : Entry := (indexOf buttonSource).entries.headD default

/-- This button with the props set. -/
def buttonRewritten : Text :=
  "<Button data-component-id='up' variant=\"ghost\" size=\x7b2\x7d>Done</Button>".toList

/-- The props of a button set: its text, two of its attributes, and one more. -/
theorem patch_eq_rewritten_button :
    ∃ edits, patchEdits buttonSource (indexOf buttonSource) 0 buttonProps .standard = .ok edits
      ∧ (∀ s ∈ edits, s.InBounds buttonSource) ∧ edits.Pairwise Splice.Apart
      ∧ patch buttonSource (indexOf buttonSource) 0 buttonProps .standard
        = .ok buttonRewritten := by
  have hdocument : document buttonSource = .ok (indexOf buttonSource) :=
    document_eq_ok (by decide +kernel)
  have hentry : (indexOf buttonSource).entries[0]? = some buttonEntry := by decide +kernel
  have hnames : (buttonEntry.node.attributes.map Attribute.name).Nodup := by decide +kernel
  have htag : Text.startsWith (Text.fromOffset buttonEntry.node.opening.start buttonSource)
      ('<' :: buttonEntry.node.tag.toList) := by decide +kernel
  have hself : buttonEntry.node.selfClosing →
      Text.endsWith (Text.covered buttonSource buttonEntry.node.opening) ['/', '>'] := by
    decide +kernel
  have hkeys : (buttonProps.map Prod.fst).Nodup := by decide +kernel
  have hchildren : buttonEntry.children = [] := by decide +kernel
  have hrewritten : rewritten buttonSource buttonEntry.node
      (buttonProps.filter fun c => c.1 ≠ Style.standard.marker) = buttonRewritten := by
    decide +kernel
  rw [← hrewritten]
  exact (patch_eq_rewritten hdocument hentry hnames htag hself hkeys).2 fun h => h.1 hchildren

end CanvasSync.Edit
