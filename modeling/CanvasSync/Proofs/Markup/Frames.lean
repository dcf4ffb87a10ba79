import CanvasSync.Proofs.Script.Elements
import CanvasSync.Proofs.Text.Solid

/-!
Places in a content.

* `Frame`: a content with a hole in it, which `Frame.fill` fills with another content;
* `written_fill`: what stands before and behind the hole stays as it is written;
* `isProper_fill`: what is read as written is so with another content in the hole;
* `Passage.withLast`: a content with the text at its end exchanged for another content;
* `exists_fill`: each node that the index of a content lists stands in a hole of it.
-/

namespace CanvasSync.Markup

open CanvasSync.Script (isAttributeName isMarkupName)
open CanvasSync.Script.Grammar (IsAttribute IsPlain Piece isBlank_of_mem_attributeName
  isBlank_of_mem_markupName)

/-- A content with a hole in it. -/
inductive Frame where
  | hole
  /-- The hole is behind an expression in braces. -/
  | behindBraces (t e : Text) (piece : Piece) (frame : Frame)
  /-- The hole is behind a node. -/
  | behind (t : Text) (shell : Shell) (inner : Passage) (frame : Frame)
  /-- The hole is between the tags of a node. -/
  | within (t : Text) (shell : Shell) (frame : Frame) (rest : Passage)

namespace Frame

/-- A content with another one in its hole. -/
def fill (c : Passage) : Frame → Passage
  | hole => c
  | behindBraces t e piece f => .braced t e piece (fill c f)
  | behind t shell inner f => .node t shell inner (fill c f)
  | within t shell f rest => .node t shell (fill c f) rest

/-- What is written before the hole. -/
def front : Frame → Text
  | hole => []
  | behindBraces t e _ f => t ++ '\x7b' :: (e ++ '\x7d' :: f.front)
  | behind t shell inner f => t ++ (shell.wrap inner ++ f.front)
  | within t shell f _ => t ++ (shell.opening ++ f.front)

/-- What is written behind the hole. -/
def back : Frame → Text
  | hole => []
  | behindBraces _ _ _ f | behind _ _ _ f => f.back
  | within _ shell f rest => f.back ++ (shell.closing ++ rest.written)

/-- The tags around the hole, from the outside in. -/
def shells : Frame → List Shell
  | hole => []
  | behindBraces _ _ _ f | behind _ _ _ f => f.shells
  | within _ shell f _ => shell :: f.shells

variable {f : Frame} {c c' : Passage}

lemma written_fill (f : Frame) (c : Passage) :
    (f.fill c).written = f.front ++ (c.written ++ f.back) := by
  induction f with
  | hole => simp [fill, front, back]
  | behindBraces t e piece f ih => simp [fill, front, back, Passage.written, ih]
  | behind t shell inner f ih => simp [fill, front, back, Passage.written, Shell.wrap, ih]
  | within t shell f rest ih => simp [fill, front, back, Passage.written, ih]

/-- A hole with a node in it makes a content more than a text. -/
lemma fill_node_ne_text (f : Frame) (t : Text) (shell : Shell) (inner rest : Passage) (u : Text) :
    f.fill (.node t shell inner rest) ≠ .text u := by
  cases f <;> simp [fill]

/-- A content with a node in its hole is read as written if this node is, and then it is so with
anything in its place that is read as written. -/
lemma isProper_fill {t : Text} {shell : Shell} {inner rest : Passage}
    (h : (f.fill (.node t shell inner rest)).IsProper) :
    (Passage.node t shell inner rest).IsProper ∧ ∀ c, c.IsProper → (f.fill c).IsProper := by
  induction f with
  | hole => exact ⟨h, fun _ hc => hc⟩
  | behindBraces u e piece f ih =>
      obtain ⟨hu, he, hf⟩ := h
      exact ⟨(ih hf).1, fun c hc => ⟨hu, he, (ih hf).2 c hc⟩⟩
  | behind u sh inn f ih =>
      obtain ⟨hu, hsh, hclosed, hinn, hf⟩ := h
      exact ⟨(ih hf).1, fun c hc => ⟨hu, hsh, hclosed, hinn, (ih hf).2 c hc⟩⟩
  | within u sh f rest' ih =>
      obtain ⟨hu, hsh, hclosed, hf, hrest⟩ := h
      refine ⟨(ih hf).1, fun c hc => ⟨hu, hsh, fun hcl => ?_, (ih hf).2 c hc, hrest⟩⟩
      exact absurd (hclosed hcl) (fill_node_ne_text f t shell inner rest [])

end Frame

/-! ### The end of a content -/

lemma isPlain_append {t u : Text} : IsPlain (t ++ u) ↔ IsPlain t ∧ IsPlain u :=
  List.forall_mem_append

lemma isPlain_feed : IsPlain ['\n'] := List.forall_mem_singleton.mpr (by decide)

namespace Passage

/-- The text at the end of a content. -/
def lastText : Passage → Text
  | text t => t
  | braced _ _ _ rest | node _ _ _ rest => rest.lastText

/-- What is written before the text at the end. -/
def beforeLast : Passage → Text
  | text _ => []
  | braced t e _ rest => t ++ '\x7b' :: (e ++ '\x7d' :: rest.beforeLast)
  | node t shell inner rest => t ++ (shell.wrap inner ++ rest.beforeLast)

/-- A content with the text at its end exchanged for another content. -/
def withLast : Passage → Passage → Passage
  | text _, c => c
  | braced t e piece rest, c => .braced t e piece (rest.withLast c)
  | node t shell inner rest, c => .node t shell inner (rest.withLast c)

variable {c d : Passage}

lemma written_eq (d : Passage) : d.written = d.beforeLast ++ d.lastText := by
  induction d with
  | text t => rfl
  | braced t e piece rest ih => simp [written, beforeLast, lastText, ih]
  | node t shell inner rest _ ih => simp [written, beforeLast, lastText, Shell.wrap, ih]

lemma written_withLast (d c : Passage) : (d.withLast c).written = d.beforeLast ++ c.written := by
  induction d with
  | text t => rfl
  | braced t e piece rest ih => simp [written, withLast, beforeLast, ih]
  | node t shell inner rest _ ih => simp [written, withLast, beforeLast, Shell.wrap, ih]

lemma components_withLast (marker : String) (d c : Passage) :
    (d.withLast c).components marker = d.components marker ++ c.components marker := by
  induction d with
  | text t => rfl
  | braced t e piece rest ih => exact ih
  | node t shell inner rest _ ih => rw [withLast, components, components, ih, List.append_assoc]

lemma isProper_withLast (hd : d.IsProper) (hc : c.IsProper) : (d.withLast c).IsProper := by
  induction d with
  | text t => exact hc
  | braced t e piece rest ih => exact ⟨hd.1, hd.2.1, ih hd.2.2⟩
  | node t shell inner rest _ ih => exact ⟨hd.1, hd.2.1, hd.2.2.1, hd.2.2.2.1, ih hd.2.2.2.2⟩

lemma isPlain_lastText (hd : d.IsProper) : IsPlain d.lastText := by
  induction d with
  | text t => exact hd
  | braced t e piece rest ih => exact ih hd.2.2
  | node t shell inner rest _ ih => exact ih hd.2.2.2.2

/-! ### The start of a content -/

/-- The text at the start of a content. -/
def firstText : Passage → Text
  | text t | braced t _ _ _ | node t _ _ _ => t

/-- What is written behind the text at the start. -/
def behindFirst : Passage → Text
  | text _ => []
  | braced _ e _ rest => '\x7b' :: (e ++ '\x7d' :: rest.written)
  | node _ shell inner rest => shell.wrap inner ++ rest.written

/-- A content with the text at its start exchanged. -/
def withFirst (u : Text) : Passage → Passage
  | text _ => .text u
  | braced _ e piece rest => .braced u e piece rest
  | node _ shell inner rest => .node u shell inner rest

lemma written_eq_firstText (c : Passage) : c.written = c.firstText ++ c.behindFirst := by
  cases c <;> simp [written, firstText, behindFirst, Shell.wrap]

lemma written_withFirst (u : Text) (c : Passage) :
    (c.withFirst u).written = u ++ c.behindFirst := by
  cases c <;> simp [written, withFirst, behindFirst, Shell.wrap]

@[simp] lemma components_withFirst (marker : String) (u : Text) (c : Passage) :
    (c.withFirst u).components marker = c.components marker := by
  cases c <;> rfl

lemma isPlain_firstText (hc : c.IsProper) : IsPlain c.firstText := by
  cases c with
  | text t => exact hc
  | braced t e piece rest => exact hc.1
  | node t shell inner rest => exact hc.1

lemma isProper_withFirst {u : Text} (hc : c.IsProper) (hu : IsPlain u) :
    (c.withFirst u).IsProper := by
  cases c with
  | text t => exact hu
  | braced t e piece rest => exact ⟨hu, hc.2⟩
  | node t shell inner rest => exact ⟨hu, hc.2⟩

end Passage

/-! ### Solid ends -/

lemma endsSolid_of_isBlank {w : Text} (hne : w ≠ []) (h : ∀ c ∈ w, isBlank c = false) :
    Text.endsSolid w := by
  rw [Text.endsSolid, List.getLast?_eq_some_getLast hne, Option.any_some,
    h _ (List.getLast_mem hne)]
  rfl

lemma endsSolid_of_isMarkupName {w : Text} (h : isMarkupName w) : Text.endsSolid w :=
  endsSolid_of_isBlank (by rintro rfl; cases h) (isBlank_of_mem_markupName h)

lemma endsSolid_of_isAttributeName {w : Text} (h : isAttributeName w) : Text.endsSolid w :=
  endsSolid_of_isBlank (by rintro rfl; cases h) (isBlank_of_mem_attributeName h)

/-- An attribute ends with its name, a quote or a brace. -/
lemma endsSolid_text {p : Part} (hp : IsAttribute p) : Text.endsSolid p.text := by
  rw [Part.text]
  rcases p with ⟨gap, name, behind, value⟩
  cases hp.writes with
  | bare => simpa using endsSolid_of_isAttributeName hp.name
  | quoted hq _ =>
      have hsolid (t : Text) : Text.endsSolid (t ++ ['"']) ∧ Text.endsSolid (t ++ ['\'']) :=
        ⟨Text.endsSolid_append t (by decide), Text.endsSolid_append t (by decide)⟩
      refine Text.endsSolid_append _ (Text.endsSolid_append ['=', _] ?_)
      rcases hq with rfl | rfl
      · exact (hsolid _).1
      · exact (hsolid _).2
  | braces _ =>
      exact Text.endsSolid_append _ (Text.endsSolid_append ['=', '\x7b']
        (Text.endsSolid_append _ (by decide)))

lemma endsSolid_append_partsText {t : Text} {ps : List Part} (ht : Text.endsSolid t)
    (hps : ∀ p ∈ ps, IsAttribute p) : Text.endsSolid (t ++ partsText ps) := by
  induction ps generalizing t with
  | nil => simpa using ht
  | cons p ps ih =>
      rw [List.forall_mem_cons] at hps
      rw [partsText_cons, ← List.append_assoc, ← List.append_assoc]
      exact ih (Text.endsSolid_append _ (endsSolid_text hps.1)) hps.2

/-- An opening tag ends with its last sign. -/
lemma Shell.endsSolid_opening (shell : Shell) : Text.endsSolid shell.opening := by
  cases shell with
  | fragment => decide
  | element t => exact Text.endsSolid_append _ (by decide)
  | closed t => exact Text.endsSolid_append _ (by decide)

/-- A node ends with the last sign of a tag. -/
lemma Shell.endsSolid_wrap {shell : Shell} {inner : Passage}
    (hclosed : shell.isClosed → inner = .text []) : Text.endsSolid (shell.wrap inner) := by
  cases shell with
  | fragment =>
      exact Text.endsSolid_append _ (Text.endsSolid_append inner.written (by decide))
  | element t =>
      exact Text.endsSolid_append _ (Text.endsSolid_append inner.written
        (Text.endsSolid_append ('<' :: '/' :: t.name) (by decide)))
  | closed t =>
      rw [hclosed rfl]
      simpa [Shell.wrap, Shell.closing, Passage.written] using (Shell.closed t).endsSolid_opening

/-- What stands before the text at the end of a content is solid. -/
lemma Passage.endsSolid_beforeLast {d : Passage} (hd : d.IsProper) {t : Text}
    (ht : Text.endsSolid t) : Text.endsSolid (t ++ d.beforeLast) := by
  induction d generalizing t with
  | text u => simpa [beforeLast] using ht
  | braced u e piece rest ih =>
      have hbrace : Text.endsSolid (t ++ (u ++ '\x7b' :: (e ++ ['\x7d']))) :=
        Text.endsSolid_append _ (Text.endsSolid_append u (Text.endsSolid_append ('\x7b' :: e)
          (by decide)))
      simpa [beforeLast] using ih hd.2.2 hbrace
  | node u shell inner rest _ ih =>
      have hnode : Text.endsSolid (t ++ (u ++ shell.wrap inner)) :=
        Text.endsSolid_append _ (Text.endsSolid_append u (Shell.endsSolid_wrap hd.2.2.1))
      simpa [beforeLast] using ih hd.2.2.2.2 hnode

/-- A wrapped content begins with the first sign of a tag. -/
lemma Shell.exists_wrap_eq_cons (shell : Shell) (inner : Passage) :
    ∃ w, shell.wrap inner = '<' :: w := by
  cases shell <;> exact ⟨_, rfl⟩

/-- What stands behind a content begins with the first sign of a tag. -/
lemma Shell.beginsSolid_closing {shell : Shell} (h : shell.isClosed = false) (z : Text) :
    Text.beginsSolid (shell.closing ++ z) := by
  cases shell with
  | fragment => rfl
  | element t => rfl
  | closed t => cases h

/-- What stands behind the text at the start of a content is solid, if it does so behind all of the
content. -/
lemma Passage.beginsSolid_behindFirst {z : Text} (hz : Text.beginsSolid z) (c : Passage) :
    Text.beginsSolid (c.behindFirst ++ z) := by
  cases c with
  | text t => exact hz
  | braced t e piece rest => rfl
  | node t shell inner rest =>
      obtain ⟨w, hw⟩ := shell.exists_wrap_eq_cons inner
      rw [behindFirst, hw]
      rfl

namespace Frame

variable {t u z : Text} {shell : Shell} {inner rest : Passage}

/-- What stands before a hole is solid, if it does so before the content. -/
lemma endsSolid_front {f : Frame} (hf : (f.fill (.node t shell inner rest)).IsProper)
    (hu : Text.endsSolid u) : Text.endsSolid (u ++ f.front) := by
  induction f generalizing u with
  | hole => simpa [front] using hu
  | behindBraces t' e piece f ih =>
      have hbrace : Text.endsSolid (u ++ (t' ++ '\x7b' :: (e ++ ['\x7d']))) :=
        Text.endsSolid_append _ (Text.endsSolid_append t' (Text.endsSolid_append ('\x7b' :: e)
          (by decide)))
      simpa [front] using ih hf.2.2 hbrace
  | behind t' sh inn f ih =>
      have hnode : Text.endsSolid (u ++ (t' ++ sh.wrap inn)) :=
        Text.endsSolid_append _ (Text.endsSolid_append t' (Shell.endsSolid_wrap hf.2.2.1))
      simpa [front] using ih hf.2.2.2.2 hnode
  | within t' sh f rest' ih =>
      have hopening : Text.endsSolid (u ++ (t' ++ sh.opening)) :=
        Text.endsSolid_append _ (Text.endsSolid_append t' sh.endsSolid_opening)
      simpa [front] using ih hf.2.2.2.1 hopening

/-- What stands behind a hole is solid, if it does so behind the content. -/
lemma beginsSolid_back {f : Frame} (hf : (f.fill (.node t shell inner rest)).IsProper)
    (hz : Text.beginsSolid z) : Text.beginsSolid (f.back ++ z) := by
  induction f generalizing z with
  | hole => exact hz
  | behindBraces t' e piece f ih => exact ih hf.2.2 hz
  | behind t' sh inn f ih => exact ih hf.2.2.2.2 hz
  | within t' sh f rest' ih =>
      rw [back, List.append_assoc, List.append_assoc]
      refine ih hf.2.2.2.1 (Shell.beginsSolid_closing ?_ _)
      by_contra hclosed
      exact fill_node_ne_text f t shell inner rest [] (hf.2.2.1 (by simpa using hclosed))

end Frame

/-! ### Nodes of an index -/

namespace Document

variable {d : Document} {around : Option Nat} {here i o : Nat} {c : Passage}

/-- Nothing marked is at a node or around it if it is not marked itself and nothing marked is around
it. -/
lemma nearestFrom_eq_none (hd : d.IsNested) {e : Entry} (he : d.entries[i]? = some e)
    (p : Entry → Bool) :
    d.nearestFrom p i = none ↔ p e = false ∧ e.parent.bind (d.nearestFrom p) = none := by
  have hi : i < d.entries.length := (List.getElem?_eq_some_iff.mp he).1
  rw [nearestFrom, he, Option.any_some, ancestorWhere?_eq hd p hi, he, Option.bind_some]
  cases p e <;> simp

/-- **Each node that the index of a content lists stands in a hole of it.** If nothing marked is
around the node, no tag around the hole is marked, nor is the node itself. -/
theorem exists_fill (hd : d.IsNested) (h : d.Holds around here (c.trees o)) (hlow : here ≤ i)
    (hhigh : i < here + Tree.countOf (c.trees o)) :
    ∃ (f : Frame) (t : Text) (shell : Shell) (inner rest : Passage),
      c = f.fill (.node t shell inner rest)
        ∧ (d.entries[i]?).map Entry.node
            = some (shell.node inner (o + Text.size (f.front ++ t)))
        ∧ d.Holds (some i) (i + 1)
            (inner.trees (o + Text.size (f.front ++ t) + Text.size shell.opening))
        ∧ ∀ marker, d.nearestFrom (isMarked marker) i = none →
            around.bind (d.nearestFrom (isMarked marker)) = none
              ∧ ∀ s ∈ shell :: f.shells, s.marker? marker = none := by
  induction c generalizing around here o with
  | text t =>
      rw [Passage.trees, Tree.countOf] at hhigh
      omega
  | braced t e piece rest ih =>
      obtain ⟨f, u, shell, inner, rest', hrest, hnode, hnested, hnear⟩ := ih h hlow hhigh
      refine ⟨.behindBraces t e piece f, u, shell, inner, rest', by rw [hrest]; rfl, ?_⟩
      have hone : '\x7b'.utf8Size = 1 ∧ '\x7d'.utf8Size = 1 := ⟨rfl, rfl⟩
      have hstart : o + Text.size t + Text.size e + 2 + Text.size (f.front ++ u)
          = o + Text.size ((Frame.behindBraces t e piece f).front ++ u) := by
        simp only [Frame.front, Text.size_append, Text.size_cons, hone]
        omega
      rw [← hstart]
      exact ⟨hnode, hnested, hnear⟩
  | node t shell inner rest ihinner ih =>
      rw [Passage.trees_node, Shell.tree] at h
      rw [Passage.trees_node, Shell.tree, Tree.countOf_cons] at hhigh
      obtain ⟨hhere, hinner, hrest⟩ := h.cons
      obtain ⟨e, he, hrow⟩ := Option.map_eq_some_iff.mp hhere
      obtain ⟨hnode, hparent⟩ := Prod.mk.inj hrow
      have hnear (marker : String) (hnone : d.nearestFrom (isMarked marker) here = none) :
          around.bind (d.nearestFrom (isMarked marker)) = none ∧ shell.marker? marker = none := by
        obtain ⟨hmarked, haround⟩ := (nearestFrom_eq_none hd he _).mp hnone
        rw [isMarked, hnode, Shell.quoted?_node] at hmarked
        exact ⟨hparent ▸ haround, by simpa using hmarked⟩
      rcases Nat.lt_trichotomy i (here + 1 + Tree.countOf (inner.trees
        (o + Text.size t + Text.size shell.opening))) with hlt | hge
      · rcases Nat.eq_or_lt_of_le hlow with rfl | hlow
        · refine ⟨.hole, t, shell, inner, rest, rfl, ?_, hinner, fun marker hnone => ?_⟩
          · rw [he, Option.map_some, hnode]
            rfl
          · obtain ⟨haround, hmarker⟩ := hnear marker hnone
            exact ⟨haround, List.forall_mem_singleton.mpr hmarker⟩
        · obtain ⟨f, u, sh, inn, rest', hin, hnode', hnested, hnear'⟩ := ihinner hinner hlow hlt
          refine ⟨.within t shell f rest, u, sh, inn, rest', by rw [hin]; rfl, ?_⟩
          have hstart : o + Text.size t + Text.size shell.opening + Text.size (f.front ++ u)
              = o + Text.size ((Frame.within t shell f rest).front ++ u) := by
            simp only [Frame.front, Text.size_append]
            omega
          rw [← hstart]
          refine ⟨hnode', hnested, fun marker hnone => ?_⟩
          obtain ⟨hinside, hmarkers⟩ := hnear' marker hnone
          obtain ⟨haround, hmarker⟩ := hnear marker hinside
          rw [List.forall_mem_cons] at hmarkers
          exact ⟨haround, List.forall_mem_cons.mpr ⟨hmarkers.1,
            List.forall_mem_cons.mpr ⟨hmarker, hmarkers.2⟩⟩⟩
      · have hlow : here + (Tree.countOf (inner.trees
            (o + Text.size t + Text.size shell.opening)) + 1) ≤ i := by omega
        obtain ⟨f, u, sh, inn, rest', hin, hnode', hnested, hnear'⟩ := ih hrest hlow (by omega)
        refine ⟨.behind t shell inner f, u, sh, inn, rest', by rw [hin]; rfl, ?_⟩
        have hstart : o + Text.size t + Text.size (shell.wrap inner) + Text.size (f.front ++ u)
            = o + Text.size ((Frame.behind t shell inner f).front ++ u) := by
          simp only [Frame.front, Text.size_append]
          omega
        rw [← hstart]
        exact ⟨hnode', hnested, hnear'⟩

end Document

end CanvasSync.Markup
