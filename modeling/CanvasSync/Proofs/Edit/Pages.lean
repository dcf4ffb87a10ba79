import CanvasSync.Proofs.Edit.Insertions
import CanvasSync.Proofs.Edit.Removals
import CanvasSync.Proofs.Edit.Sites
import CanvasSync.Proofs.Markup.Pages

/-!
Edits of pages.

* `exists_insert`, `exists_setProps`, `exists_remove`: an edit of a proper page changes one node of
  it, in the place where it stands.
-/

namespace CanvasSync

open CanvasSync.Json (Fields Value)
open CanvasSync.Script (isAttributeName)
open CanvasSync.Script.Grammar (IsAttribute IsTag)

namespace Edit

open CanvasSync.Markup (Document Frame Page Passage Shell Style render)

variable {source out : Text} {style : Style} {p : Page} {f : Frame} {t : Text} {shell : Shell}
  {inner rest : Passage} {c : Component} {changes : Fields} {id : String}

/-- A page with something else in a hole of it. Around the root of the page there is room for one
node only. -/
lemma exists_page_of_fill (hp : p.IsProper) (h : p.passage = f.fill (.node t shell inner rest))
    {d : Passage} (hd : d.IsProper)
    (hroot : f = .hole → ∃ sh inner', d = .node [] sh inner' (.text []) ∧ sh.Opens) :
    ∃ q : Page, q.IsProper ∧ q.passage = f.fill d
      ∧ q.text = (p.front ++ f.front) ++ (d.written ++ (f.back ++ p.back)) := by
  have hproper := hp.passage
  rw [h] at hproper
  obtain ⟨-, hfill⟩ := Frame.isProper_fill hproper
  rcases Page.fill_cases h with ⟨rfl, -⟩ | ⟨g, rfl, -⟩
  · obtain ⟨sh, inner', rfl, hopens⟩ := hroot rfl
    obtain ⟨-, hshell, hclosed, hinner, -⟩ := hd
    let q : Page := { p with shell := sh, inner := inner' }
    have hq : q.IsProper :=
      ⟨hp.name, hp.free, hp.before, hp.after, hshell, hopens, hclosed, hinner⟩
    refine ⟨q, hq, rfl, (Page.text_eq q).trans ?_⟩
    simp [q, Frame.front, Frame.back, Page.passage, Page.front, Page.back]
  · obtain ⟨-, hshell, hclosed, hinner, -⟩ := hfill d hd
    let q : Page := { p with inner := g.fill d }
    have hq : q.IsProper :=
      ⟨hp.name, hp.free, hp.before, hp.after, hshell, hp.opens, hclosed, hinner⟩
    refine ⟨q, hq, rfl, (Page.text_eq q).trans ?_⟩
    have hpassage : q.passage = (Frame.within [] p.shell g (.text [])).fill d := rfl
    rw [hpassage, Frame.written_fill]
    simp [q, Page.front, Page.back]

/-- The text of a page around a hole of it. -/
lemma text_eq_of_fill (h : p.passage = f.fill (.node t shell inner rest)) :
    p.text = (p.front ++ f.front)
      ++ ((Passage.node t shell inner rest).written ++ (f.back ++ p.back)) := by
  rw [Page.text_eq, h, Frame.written_fill]
  simp

/-- The number of the node that a component is inserted into. -/
def targetIndex? (d : Document) (path : Option (List Nat)) : Option Nat :=
  d.root?.bind fun root => match path with
    | none => some root
    | some path => d.resolvePath? root path

/-- The node that a component is inserted into is one that the index lists. -/
lemma insertionTarget_eq_ok {s : Markup.Script} {path : Option (List Nat)} {target : Markup.Node}
    (h : insertionTarget (Document.ofScript s) path = .ok target) :
    ∃ (i : Nat) (e : Markup.Entry), targetIndex? (Document.ofScript s) path = some i
      ∧ (Document.ofScript s).entries[i]? = some e ∧ target = e.node := by
  rw [insertionTarget] at h
  rw [targetIndex?]
  cases hroot : (Document.ofScript s).root? with
  | none => simp [hroot] at h
  | some root =>
      have hlt := Document.root?_lt hroot
      have hnode {i : Nat} (hi : i < (Document.ofScript s).entries.length) :
          ∃ e, (Document.ofScript s).entries[i]? = some e
            ∧ nodeAt (Document.ofScript s) i = e.node := by
        refine ⟨_, List.getElem?_eq_getElem hi, ?_⟩
        rw [nodeAt, List.getElem?_eq_getElem hi]
        rfl
      simp only [hroot] at h
      cases path with
      | none =>
          obtain rfl := Except.ok.inj h
          obtain ⟨e, he, heq⟩ := hnode hlt
          exact ⟨root, e, rfl, he, heq⟩
      | some path =>
          simp only at h
          split at h
          · next i hi =>
              obtain rfl := Except.ok.inj h
              obtain ⟨e, he, heq⟩ := hnode (Document.resolvePath?_lt hlt hi)
              exact ⟨i, e, hi, he, heq⟩
          · cases h

/-- **An insertion into a page puts the component at the end of one of its nodes.** If nothing marked
is around the node, no tag around it is marked, nor is the node itself. -/
theorem exists_insert {path : Option (List Nat)} (hp : p.IsProper) (hstyle : style.IsProper)
    (hc : c.Printable) (h : insert p.text c path style = .ok out) :
    ∃ (f : Frame) (t : Text) (shell : Shell) (inner inner' rest : Passage) (q : Page),
      p.passage = f.fill (.node t shell inner rest) ∧ Appends style c inner inner'
        ∧ q.IsProper ∧ q.text = out ∧ q.passage = f.fill (.node t shell.opened inner' rest)
        ∧ ∀ d i, document p.text = .ok d → targetIndex? d path = some i →
          d.nearestFrom (Document.isMarked style.marker) i = none →
            ∀ s ∈ shell :: f.shells, s.marker? style.marker = none := by
  obtain ⟨s, hdocument, hplaced⟩ := Page.document_text hp
  rw [insert, hdocument] at h
  simp only [bind, Except.bind] at h
  cases htarget : insertionTarget (Document.ofScript s) path with
  | error e => simp [htarget] at h
  | ok target =>
      rw [htarget] at h
      obtain ⟨i, e, hi, he, rfl⟩ := insertionTarget_eq_ok htarget
      obtain ⟨f, t, shell, inner, rest, hpassage, hnode, -, hnear⟩ :=
        Page.exists_fill_of_entry hplaced he
      have hproper := hp.passage
      rw [hpassage] at hproper
      obtain ⟨⟨ht, hshell, hclosed, hinner, hrest⟩, -⟩ := Frame.isProper_fill hproper
      obtain ⟨inner', happends, hout⟩ := insertion_wrap (p.front ++ (f.front ++ t))
        (rest.written ++ (f.back ++ p.back)) hstyle hc hshell hclosed hinner
      have hd : (Passage.node t shell.opened inner' rest).IsProper :=
        ⟨ht, Shell.isProper_opened hshell, by simp, happends.isProper, hrest⟩
      have hroot (hf : f = .hole) : ∃ sh inner₂, Passage.node t shell.opened inner' rest
          = .node [] sh inner₂ (.text []) ∧ sh.Opens := by
        rcases Page.fill_cases hpassage with ⟨-, rfl, rfl, rfl, rfl⟩ | ⟨g, rfl, -⟩
        · exact ⟨_, _, rfl, Shell.opens_opened hp.opens⟩
        · cases hf
      obtain ⟨q, hq, hqpassage, hqtext⟩ := exists_page_of_fill hp hpassage hd hroot
      have hsource : p.text = p.front ++ (f.front ++ t)
          ++ (shell.wrap inner ++ (rest.written ++ (f.back ++ p.back))) := by
        rw [text_eq_of_fill hpassage]
        simp [Passage.written, Shell.wrap]
      refine ⟨f, t, shell, inner, inner', rest, q, hpassage, happends, hq, ?_, hqpassage, ?_⟩
      · have hout' := Except.ok.inj h
        rw [hnode, hsource, hout] at hout'
        rw [hqtext, ← hout']
        simp [Passage.written, Shell.wrap]
      · intro d j hd' hj hnone
        obtain rfl := Except.ok.inj (hdocument.symm.trans hd')
        obtain rfl := Option.some.inj (hi.symm.trans hj)
        exact hnear style.marker hnone

/-- The node of a page that is found for an id. -/
lemma exists_fill_of_marked {s : Markup.Script} {i : Nat}
    (hs : Document.placed s.forest = p.passage.trees (Text.size p.front))
    (h : marked (Document.ofScript s) id style = .ok i) :
    ∃ (f : Frame) (t : Text) (shell : Shell) (inner rest : Passage),
      p.passage = f.fill (.node t shell inner rest) ∧ shell.marker? style.marker = some id
        ∧ nodeAt (Document.ofScript s) i
            = shell.node inner (Text.size (p.front ++ (f.front ++ t)))
        ∧ (∃ e ∈ (Document.ofScript s).entries, ∃ o, e.node = shell.node inner o)
        ∧ (inner.trees (Text.size (p.front ++ (f.front ++ t)) + Text.size shell.opening) ≠ [] →
            (((Document.ofScript s).entries[i]?).any fun e => !e.children.isEmpty) = true) := by
  obtain ⟨e, he, hquoted⟩ := Document.exists_of_marked h
  obtain ⟨f, t, shell, inner, rest, hpassage, hnode, hnested, -⟩ := Page.exists_fill_of_entry hs he
  rw [hnode, Shell.quoted?_node] at hquoted
  refine ⟨f, t, shell, inner, rest, hpassage, hquoted, ?_,
    ⟨e, List.mem_of_getElem? he, _, hnode⟩, hnested⟩
  rw [nodeAt, he, Option.map_some, Option.getD_some, hnode]

/-- A value for the marker is passed over. -/
lemma setProps_filter (source : Text) (id : String) (changes : Fields) (style : Style) :
    setProps source id changes style
      = setProps source id (changes.filter fun c => c.1 ≠ style.marker) style := by
  simp only [setProps, patch_filter source _ _ changes]

/-- An element with a marker is no fragment. -/
lemma Shell.isFragment_of_marker? {marker : String} (h : shell.marker? marker = some id) :
    shell.isFragment = false := by
  cases shell with
  | fragment => cases h
  | element t => rfl
  | closed t => rfl

/-- **Props set in a page change the tags and the content of one of its elements**, which is marked
with their id. -/
theorem exists_setProps (hp : p.IsProper) (hkeys : (changes.map Prod.fst).Nodup)
    (hmarker : ∀ c ∈ changes, c.1 ≠ style.marker)
    (hchanges : ∀ c ∈ changes, isAttributeName c.1.toList ∧ c.2.isPlain)
    (hroot : p.shell.marker? style.marker = some id → (p.shell.updated changes).Opens)
    (h : setProps p.text id changes style = .ok out) :
    ∃ (f : Frame) (t : Text) (shell : Shell) (inner rest : Passage) (q : Page),
      p.passage = f.fill (.node t shell inner rest) ∧ shell.marker? style.marker = some id
        ∧ q.IsProper ∧ q.text = out
        ∧ q.passage = f.fill (.node t (shell.updated changes) (inner.updated changes) rest)
        ∧ (inner.components style.marker ≠ [] → contentChange? changes = none)
        ∧ ∀ d, document p.text = .ok d → ∃ e ∈ d.entries, ∃ o, e.node = shell.node inner o := by
  obtain ⟨s, hdocument, hplaced⟩ := Page.document_text hp
  rw [setProps, hdocument] at h
  simp only [bind, Except.bind] at h
  cases hfound : marked (Document.ofScript s) id style with
  | error e => simp [hfound] at h
  | ok i =>
      rw [hfound] at h
      obtain ⟨f, t, shell, inner, rest, hpassage, hid, hnode, hentry, hnested⟩ :=
        exists_fill_of_marked hplaced hfound
      have hproper := hp.passage
      rw [hpassage] at hproper
      obtain ⟨⟨ht, hshell, hclosed, hinner, hrest⟩, -⟩ := Frame.isProper_fill hproper
      have hsource : p.text = p.front ++ (f.front ++ t)
          ++ (shell.wrap inner ++ (rest.written ++ (f.back ++ p.back))) := by
        rw [text_eq_of_fill hpassage]
        simp [Passage.written, Shell.wrap]
      rw [hsource] at h
      obtain ⟨hout, hcontent⟩ := patch_wrap hshell (Shell.isFragment_of_marker? hid) hclosed hnode
        hkeys hmarker h
      have hd : (Passage.node t (shell.updated changes) (inner.updated changes) rest).IsProper :=
        ⟨ht, Markup.IsProper.updated hshell hchanges, Markup.updated_of_isClosed hclosed,
          Markup.isProper_updated hinner changes, hrest⟩
      have hroom (hf : f = .hole) : ∃ sh inner₂,
          Passage.node t (shell.updated changes) (inner.updated changes) rest
            = .node [] sh inner₂ (.text []) ∧ sh.Opens := by
        rcases Page.fill_cases hpassage with ⟨-, rfl, rfl, rfl, rfl⟩ | ⟨g, rfl, -⟩
        · exact ⟨_, _, rfl, hroot hid⟩
        · cases hf
      obtain ⟨q, hq, hqpassage, hqtext⟩ := exists_page_of_fill hp hpassage hd hroom
      refine ⟨f, t, shell, inner, rest, q, hpassage, hid, hq, ?_, hqpassage, fun hne => ?_, ?_⟩
      · rw [hqtext, hout]
        simp [Passage.written, Shell.wrap]
      · refine hcontent (hnested fun hnil => hne ?_)
        rw [← Markup.componentsOf_trees, hnil]
        rfl
      · intro d hd'
        rwa [← Except.ok.inj (hdocument.symm.trans hd')]

/-- **An element removed from a page leaves the rest of it**, unless it is the root of the page. -/
theorem exists_remove (hp : p.IsProper) (hroot : p.shell.marker? style.marker ≠ some id)
    (h : remove p.text id style = .ok out) :
    ∃ (f : Frame) (t : Text) (shell : Shell) (inner rest : Passage) (u : Text) (q : Page),
      p.passage = f.fill (.node t shell inner rest) ∧ shell.marker? style.marker = some id
        ∧ q.IsProper ∧ q.text = out ∧ q.passage = f.fill (rest.withFirst u) := by
  obtain ⟨s, hdocument, hplaced⟩ := Page.document_text hp
  rw [remove, hdocument] at h
  simp only [bind, Except.bind] at h
  cases hfound : marked (Document.ofScript s) id style with
  | error e => simp [hfound] at h
  | ok i =>
      rw [hfound] at h
      obtain ⟨f, t, shell, inner, rest, hpassage, hid, hnode, -, -⟩ :=
        exists_fill_of_marked hplaced hfound
      have hproper := hp.passage
      rw [hpassage] at hproper
      obtain ⟨⟨ht, -, -, -, hrest⟩, -⟩ := Frame.isProper_fill hproper
      rcases Page.fill_cases hpassage with ⟨-, -, rfl, -⟩ | ⟨g, rfl, hg⟩
      · exact absurd hid hroot
      have hg' := hp.inner
      rw [hg] at hg'
      have hfront : Text.endsSolid (p.front ++ (Frame.within [] p.shell g (.text [])).front) := by
        have hopening := Text.endsSolid_append p.front p.shell.endsSolid_opening
        simpa [Frame.front] using Frame.endsSolid_front hg' hopening
      have hback : Text.beginsSolid ((Frame.within [] p.shell g (.text [])).back ++ p.back) := by
        have hclosing : p.shell.isClosed = false := by
          by_contra hclosed
          exact Frame.fill_node_ne_text g t shell inner rest []
            (hg.symm.trans (hp.closed (by simpa using hclosed)))
        rw [Frame.back, List.append_assoc, List.append_assoc]
        exact Frame.beginsSolid_back hg' (Shell.beginsSolid_closing hclosing _)
      obtain ⟨u, hu, hout⟩ := removal_node shell inner hrest ht hfront hback
      obtain ⟨q, hq, hqpassage, hqtext⟩ :=
        exists_page_of_fill hp hpassage (Passage.isProper_withFirst hrest hu) (by simp)
      refine ⟨_, t, shell, inner, rest, u, q, hpassage, hid, hq, ?_, hqpassage⟩
      have hout' := Except.ok.inj h
      rw [hnode, text_eq_of_fill hpassage, ← List.append_assoc p.front, hout] at hout'
      rw [hqtext, hout']

/-! ### A page -/

/-- A page with a heading in its root. -/
def headingPage : Page where
  name := "Home".toList
  before := "\n    ".toList
  after := "\n  ".toList
  shell := .element ⟨"main".toList, [], []⟩
  inner := .node "\n      ".toList
    (.element ⟨"h1".toList, [Component.markerPart .standard "title"], []⟩) (.text "Hi".toList)
    (.text "\n    ".toList)

lemma isProper_headingPage : headingPage.IsProper := by
  have hmarker : IsAttribute (Component.markerPart .standard "title") :=
    ⟨by decide, by decide, by decide +kernel, .quoted (.inl rfl) (by decide)⟩
  have hplain {t : Text} (ht : t.all fun c => c ≠ '<' && c ≠ '\x7b') : Script.Grammar.IsPlain t :=
    fun c hc => by simpa using List.all_eq_true.mp ht c hc
  have hmain : IsTag ⟨"main".toList, [], []⟩ := ⟨by decide +kernel, List.forall_mem_nil _, rfl⟩
  have hheading : IsTag ⟨"h1".toList, [Component.markerPart .standard "title"], []⟩ :=
    ⟨by decide +kernel, List.forall_mem_singleton.mpr hmarker, rfl⟩
  exact
    { name := by decide +kernel
      free := by decide +kernel
      before := List.all_eq_true.mp (by decide +kernel)
      after := List.all_eq_true.mp (by decide +kernel)
      shell := hmain
      opens := .inl ⟨by decide +kernel, by simp⟩
      closed := by simp [headingPage, Shell.isClosed]
      inner := ⟨hplain (by decide +kernel), hheading, by simp [Shell.isClosed],
        hplain (by decide +kernel), hplain (by decide +kernel)⟩ }

end Edit

end CanvasSync
