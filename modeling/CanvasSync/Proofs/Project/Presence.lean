import CanvasSync.Proofs.Edit.Outlines
import CanvasSync.Proofs.Project.Overlaps
import CanvasSync.Proofs.Project.Standing

/-!
Whether each component that is known stands in its file.

* `Session.InStep`: what is known is what stands in the files: their texts, and how the components in
  them nest;
* `Session.Admits`: what it takes for a call to keep this, and `Session.InStep.perform`, that it does;
* `states_present`: each component that is known stands in the file that is recorded for it, in every
  project that calls lead through;
* `states_absent_headingProject`: a component added within another one is recorded beside it, and is
  still known when it has gone from its file together with the other one.
-/

namespace CanvasSync.Project

open CanvasSync.Component
open CanvasSync.Markup (Page Style)
open CanvasSync.Storage (ChangeKind Path)

/-! ### A project in step with its files -/

variable {s t : Session} {call : Call} {c : Component} {i : String} {p : Path} {text code : Text}
  {e : Event}

/-- The change that a call makes in its file. -/
def Call.change? : Call → Option Edit.Change
  | .add c _ target => some (.insert c target)
  | .update i u => some (.setProps i (u.props.getD []))
  | .remove i => some (.remove i)
  | .resync _ _ => none

lemma Call.edited?_eq {change : Edit.Change} (h : call.change? = some change) (style : Style)
    (source : Text) : call.edited? style source = (change.apply source style).toOption := by
  cases call <;> cases h <;> rfl

namespace Session

/-- A text is that of a page whose components are those that stand in a file, in whatever order. -/
def Shows (s : Session) (p : Path) (text : Text) : Prop :=
  ∃ q : Page, q.IsProper ∧ q.text = text
    ∧ (outlineAll (s.state.standing p)).Perm
        (outlineAll (q.passage.components s.config.style.marker))

/-- What is known is what stands in the files, and no call is in progress. -/
structure InStep (s : Session) : Prop where
  free : s.locks = []
  tidy : s.state.IsTidy
  known : ∀ i p, s.state.owners.lookup i = some p → (s.state.files.get? p).isSome
  /-- The text that is known of a file is on the disk, with what stands in the file. -/
  tracks : ∀ p text, s.state.files.get? p = some text → s.disk.get? p = some text ∧ s.Shows p text

/-- A change fits every page on the disk. -/
def Fits (s : Session) (change : Edit.Change) : Prop :=
  ∀ p (q : Page), q.IsProper → s.disk.get? p = some q.text → change.Fits s.config.style q

/-- A text is that of a page with distinct components of which none is known. -/
def IsNew (s : Session) (text : Text) : Prop :=
  ∃ q : Page, q.IsProper ∧ q.text = text
    ∧ (idsAll (q.passage.components s.config.style.marker)).Nodup
    ∧ ∀ i ∈ idsAll (q.passage.components s.config.style.marker), i ∉ idsAll s.state.components

/-- What it takes for a call to leave a project in step: what it writes is read as written, what it
adds has nothing marked around it, what it removes is not the root of a page, and a file that is not
known is new in all. -/
def Admits (s : Session) : Call → Prop
  | .add c file target => s.Fits (.insert c target) ∧ (∀ i ∈ c.ids, Text.isOneLine i.toList)
      ∧ (s.state.files.get? (s.target file)).isSome
      ∧ ∀ text ∈ s.disk.get? (s.target file), Edit.isApart text s.config.style target
  | .update i u => u.children = none ∧ s.Fits (.setProps i (u.props.getD []))
  | .remove i => s.Fits (.remove i)
  | .resync p kind => kind ≠ .removed ∧ (s.state.files.get? (s.resolve p) = none →
      ∀ text ∈ s.disk.get? (s.resolve p), s.IsNew text)

/-- Each component that is known stands in its file. -/
lemma InStep.exists_mem_extract (hs : s.InStep) (hi : i ∈ idsAll s.state.components) :
    ∃ p text cs, s.state.owners.lookup i = some p ∧ s.state.files.get? p = some text
      ∧ Edit.extract text s.config.style = .ok cs ∧ i ∈ idsAll cs := by
  obtain ⟨p, hp⟩ : ∃ p, s.state.owners.lookup i = some p := by
    rw [← Option.ne_none_iff_exists', Ne, hs.tidy.lookup_eq_none_iff, not_not]
    exact hi
  obtain ⟨text, htext⟩ := Option.isSome_iff_exists.mp (hs.known i p hp)
  obtain ⟨-, q, hq, rfl, hperm⟩ := hs.tracks p text htext
  refine ⟨p, _, _, hp, htext, Page.extract_text hq _, ?_⟩
  have hids := (idsAll_perm hperm).mem_iff (a := i)
  rw [idsAll_outlineAll, idsAll_outlineAll, hs.tidy.mem_idsAll_standing_iff] at hids
  exact hids.mp ⟨hi, by rw [State.standsIn_of_lookup hp, Path.same_self]⟩

/-- The text of a file that is known shows what stands in it. -/
lemma InStep.shows (hs : s.InStep) (hp : (s.state.files.get? p).isSome)
    (hdisk : s.disk.get? p = some text) : s.Shows p text := by
  obtain ⟨u, hu⟩ := Option.isSome_iff_exists.mp hp
  obtain ⟨hdisk', hshows⟩ := hs.tracks p u hu
  obtain rfl := Option.some.inj (hdisk'.symm.trans hdisk)
  exact hshows

/-- A project stays in step if what is known of one file turns into what stands in it. -/
lemma InStep.turn (hs : s.InStep) (h : State.Turned p code s.state t.state)
    (hlocks : t.locks = s.locks) (hconfig : t.config = s.config)
    (hdisk : ∀ q, t.disk.get? q = if p.same q then some code else s.disk.get? q)
    (hshows : t.Shows p code) : t.InStep := by
  refine ⟨hlocks.trans hs.free, h.tidy, fun i q hq => ?_, fun q text htext => ?_⟩
  · rw [h.files]
    split_ifs with hsame
    · rfl
    · rcases h.owners i q hq with rfl | hq
      · exact absurd (Path.same_self q) hsame
      · exact hs.known i q hq
  · rw [h.files] at htext
    split_ifs at htext with hsame
    · obtain rfl := Option.some.inj htext
      refine ⟨by rw [hdisk, if_pos hsame], ?_⟩
      rw [Shows, ← State.standing_congr hsame]
      exact hshows
    · obtain ⟨hold, hshows'⟩ := hs.tracks q text htext
      refine ⟨by rw [hdisk, if_neg hsame, hold], ?_⟩
      rw [Shows, h.others q (by simpa using hsame), hconfig]
      exact hshows'

end Session

/-! ### Calls -/

/-- A call that changes a file has written it, unless it needs none. -/
lemma Settled.of_change {change : Edit.Change} (hchange : call.change? = some change)
    (h : Settled s call e t) : t.config = s.config ∧ t.locks = s.locks
      ∧ ((∃ u due, call.begin s = .ok (none, u) ∧ call.commitWithoutFile = some due
          ∧ due.apply s.state = .ok (t.state, e) ∧ t.disk = s.disk)
        ∨ ∃ p u text code due, call.begin s = .ok (some p, u) ∧ s.disk.get? p = some text
          ∧ change.apply text s.config.style = .ok code ∧ call.draft s p = .ok (some code, due)
          ∧ due.apply s.state = .ok (t.state, e)
          ∧ ∀ q, t.disk.get? q = if p.same q then some code else s.disk.get? q) := by
  cases h with
  | unread hbegin hdue happly => exact ⟨rfl, rfl, .inl ⟨_, _, hbegin, hdue, happly, rfl⟩⟩
  | read hbegin hfree hdraft happly =>
      cases call with
      | add c file target => obtain ⟨text, hcode, -⟩ := Call.draft_add hdraft; cases hcode
      | update i u => obtain ⟨text, hcode, -⟩ := Call.draft_update hdraft; cases hcode
      | remove i => obtain ⟨text, hcode, -⟩ := Call.draft_remove hdraft; cases hcode
      | resync q kind => cases hchange
  | @written u p code due disk state e hbegin hfree hdraft hwrite happly =>
      obtain ⟨text, htext, hedited⟩ := Call.edited?_of_draft hdraft
      have hcode : change.apply text s.config.style = .ok code := by
        rw [Call.edited?_eq hchange] at hedited
        cases hr : change.apply text s.config.style <;> simp_all [Except.toOption]
      exact ⟨rfl, rfl, .inr ⟨p, u, text, code, due, hbegin, htext, hcode, hdraft, happly,
        Storage.Disk.get?_of_write (write_of_writeSource hwrite)⟩⟩

/-- A component added where nothing marked is around it leaves a project in step. -/
lemma Session.InStep.add {file : Option Path} {target : Option (List Nat)} (hs : s.InStep)
    (hstyle : s.config.style.IsProper) (hadmits : s.Admits (.add c file target))
    (h : Settled s (.add c file target) e t) : t.InStep := by
  obtain ⟨hfits, hids, hknown, hapart⟩ := hadmits
  obtain ⟨hconfig, hlocks, ⟨_, _, _, hdue, _⟩ |
    ⟨p, u, text, code, due, hbegin, htext, hcode, hdraft, happly, hdisk⟩⟩ := h.of_change rfl
  · cases hdue
  obtain ⟨code', hcode', rfl⟩ := Call.draft_add hdraft
  obtain rfl := Option.some.inj hcode'
  obtain ⟨hp, hclaim⟩ := Call.begin_add hbegin
  obtain rfl := Option.some.inj hp
  obtain ⟨-, hnodup, hnew, -⟩ := Session.claim_eq_ok hclaim
  obtain ⟨hturned, hstanding⟩ :=
    State.turned_add hs.tidy hnodup hnew (s.target file) code
  obtain ⟨q, hq, rfl, hperm⟩ := hs.shows hknown htext
  obtain ⟨q', hq', hq'text, hperm'⟩ :=
    Edit.outline_insert hstyle hq (hfits _ q hq htext) hids (hapart _ htext) hcode
  simp only [Commit.apply, Except.ok.injEq, Prod.mk.injEq] at happly
  rw [happly.1] at hturned hstanding
  refine hs.turn hturned hlocks hconfig hdisk ⟨q', hq', hq'text, ?_⟩
  rw [hstanding, outlineAll_append, hconfig]
  rw [outlineAll_append] at hperm'
  exact (hperm.append_right _).trans hperm'.symm

/-- The file of a component that is known is the one recorded for it. -/
lemma lookup_of_ownerOf? (hs : s.state.IsTidy) (hhas : s.state.has i) (h : s.ownerOf? i = some p) :
    s.state.owners.lookup i = some p := by
  rw [Session.ownerOf?, State.ownerOf?] at h
  cases hlookup : s.state.owners.lookup i with
  | none => exact absurd (State.has_iff.mp hhas) (hs.lookup_eq_none_iff.mp hlookup)
  | some q => rwa [hlookup] at h

/-- An update that leaves the components within alone leaves a project in step. -/
lemma Session.InStep.update {u : Update} (hs : s.InStep) (hadmits : s.Admits (.update i u))
    (h : Settled s (.update i u) e t) : t.InStep := by
  obtain ⟨hchildren, hfits⟩ := hadmits
  obtain ⟨hconfig, hlocks, ⟨v, due, -, hdue, happly, hdisk⟩ |
    ⟨p, v, text, code, due, hbegin, htext, hcode, hdraft, happly, hdisk⟩⟩ := h.of_change rfl
  · obtain rfl := Option.some.inj hdue
    obtain ⟨htidy, hlookup, hout, hfiles⟩ :=
      State.frame_update? hs.tidy hchildren (by simp) (Commit.update?_of_apply happly)
    rw [Option.elim_none] at hfiles
    refine ⟨hlocks.trans hs.free, htidy, fun j q hq => ?_, fun q text htext => ?_⟩
    · rw [hfiles]
      exact hs.known j q (hlookup j ▸ hq)
    · rw [hfiles] at htext
      obtain ⟨hold, hshows⟩ := hs.tracks q text htext
      exact ⟨hdisk ▸ hold, by rw [Session.Shows, hout, hconfig]; exact hshows⟩
  · obtain ⟨code', hcode', rfl⟩ := Call.draft_update hdraft
    obtain rfl := Option.some.inj hcode'
    obtain ⟨-, hhas, -, howner⟩ := Call.begin_update hbegin
    have howned : s.state.owners.lookup i = some p := lookup_of_ownerOf? hs.tidy hhas (howner p rfl)
    obtain ⟨htidy, hlookup, hout, hfiles⟩ :=
      State.frame_update? hs.tidy hchildren (by simpa using howned) (Commit.update?_of_apply happly)
    obtain ⟨q, hq, rfl, hperm⟩ := hs.shows (hs.known i p howned) htext
    obtain ⟨q', hq', hq'text, hout'⟩ := Edit.outline_setProps hq (hfits p q hq htext) hcode
    refine hs.turn ⟨htidy, fun j r hr => .inr (hlookup j ▸ hr), fun r => ?_, fun r _ => hout r⟩
      hlocks hconfig hdisk ⟨q', hq', hq'text, ?_⟩
    · rw [hfiles]
      exact Storage.Files.get?_insert ..
    · rw [hout, hconfig, hout']
      exact hperm

/-- A component removed that is not the root of a page leaves a project in step: it is gone with all
that stood within it in the file. -/
lemma Session.InStep.remove (hs : s.InStep) (hadmits : s.Admits (.remove i))
    (h : Settled s (.remove i) e t) : t.InStep := by
  obtain ⟨hconfig, hlocks, ⟨_, _, _, hdue, _⟩ |
    ⟨p, u, text, code, due, hbegin, htext, hcode, hdraft, happly, hdisk⟩⟩ := h.of_change rfl
  · cases hdue
  obtain ⟨code', hcode', rfl⟩ := Call.draft_remove hdraft
  obtain rfl := Option.some.inj hcode'
  obtain ⟨-, hhas, q, hq, howner⟩ := Call.begin_remove hbegin
  obtain rfl := Option.some.inj hq
  have howned : s.state.owners.lookup i = some p := lookup_of_ownerOf? hs.tidy hhas howner
  obtain ⟨hturned, hstanding⟩ := State.turned_removeFrom hs.tidy howned code
  obtain ⟨q, hq, rfl, hperm⟩ := hs.shows (hs.known i p howned) htext
  have honce : (idsAll (q.passage.components s.config.style.marker)).count i ≤ 1 := by
    have hids := (idsAll_perm hperm).count_eq i
    rw [idsAll_outlineAll, idsAll_outlineAll] at hids
    rw [← hids]
    exact List.nodup_iff_count_le_one.mp
      (hs.tidy.distinct.sublist (idsAll_sublist List.filter_sublist)) i
  obtain ⟨q', hq', hq'text, hout⟩ := Edit.outline_remove hq (hadmits p q hq htext) honce hcode
  simp only [Commit.apply, Except.ok.injEq, Prod.mk.injEq] at happly
  rw [happly.1] at hturned hstanding
  refine hs.turn hturned hlocks hconfig hdisk ⟨q', hq', hq'text, ?_⟩
  rw [hstanding, outlineAll_prunedAll, hconfig, hout]
  exact prunedAll_perm _ hperm

/-- A file that was read again has been read, and its components taken over. -/
lemma Settled.of_reread {kind : ChangeKind} (hkind : kind ≠ .removed)
    (h : Settled s (.resync p kind) e t) : ∃ source found,
      s.disk.get? (s.resolve p) = some source ∧ Edit.extract source s.config.style = .ok found
        ∧ t = { s with state := (s.state.resync (s.resolve p) source found).1 } := by
  cases h with
  | unread hbegin hdue happly => cases hdue
  | read hbegin hfree hdraft happly =>
      obtain ⟨hq, rfl⟩ := Call.begin_resync hbegin
      obtain rfl := Option.some.inj hq
      obtain ⟨-, ⟨hremoved, -⟩ | ⟨-, source, found, hread, rfl⟩⟩ := Call.draft_resync hdraft
      · exact absurd hremoved hkind
      · simp only [Commit.apply, Except.ok.injEq, Prod.mk.injEq] at happly
        obtain ⟨rfl, -⟩ := happly
        obtain ⟨source', hsource, hextract⟩ := bind_eq_ok.mp hread
        obtain ⟨found', hfound, heq⟩ := bind_eq_ok.mp hextract
        cases heq
        exact ⟨source, found, get?_of_readSource hsource, eq_ok_of_ofEdit hfound, rfl⟩
  | written hbegin hfree hdraft hwrite happly =>
      obtain ⟨hcode, -⟩ := Call.draft_resync hdraft
      cases hcode

/-- A file that is known, or new in all, has all that is recorded for it. -/
lemma Session.InStep.covers {q : Page} (hs : s.InStep) (hq : q.IsProper)
    (hdisk : s.disk.get? p = some q.text) (hnew : s.state.files.get? p = none → s.IsNew q.text) :
    s.state.Covers p (q.passage.components s.config.style.marker) := by
  cases hp : s.state.files.get? p with
  | some text =>
      obtain ⟨q', hq', htext, hperm⟩ := hs.shows (by rw [hp]; rfl) hdisk
      rw [Page.components_congr hq' hq htext] at hperm
      have hids := idsAll_perm hperm
      rw [idsAll_outlineAll, idsAll_outlineAll] at hids
      refine ⟨hids.nodup_iff.mp (hs.tidy.distinct.sublist (idsAll_sublist List.filter_sublist)),
        fun i hi hin => ?_, fun i hi _ => ?_, fun c hc => ?_⟩
      · exact hids.mem_iff.mp (hs.tidy.mem_idsAll_standing_iff.mpr ⟨hi, hin⟩)
      · exact (hs.tidy.mem_idsAll_standing_iff.mp (hids.mem_iff.mpr hi)).2
      · have hroots := (hperm.map Component.id).mem_iff (a := c.id)
        have hmap (cs : List Component) : (outlineAll cs).map Component.id = cs.map Component.id := by
          rw [outlineAll_eq_map, List.map_map]
          exact List.map_congr_left fun d _ => id_outline d
        rw [hmap, hmap] at hroots
        exact hroots.mp (List.mem_map_of_mem hc)
  | none =>
      obtain ⟨q', hq', htext, hnodup, hdis⟩ := hnew hp
      rw [Page.components_congr hq' hq htext] at hnodup hdis
      have hout (i : String) : s.state.standsIn p i = false := by
        by_contra hin
        rw [Bool.not_eq_false, State.standsIn, Option.any_eq_true] at hin
        obtain ⟨r, hr, hrp⟩ := hin
        have hknown := hs.known i r hr
        rw [Storage.Files.get?_congr hrp, hp] at hknown
        cases hknown
      refine ⟨hnodup, fun i _ hin => ?_, fun i hi hin => absurd hin (hdis i hi), fun c hc => ?_⟩
      · rw [hout] at hin
        cases hin
      · have hin := (List.mem_filter.mp hc).2
        rw [hout] at hin
        cases hin

/-- A file read again leaves a project in step. -/
lemma Session.InStep.resync {kind : ChangeKind} (hs : s.InStep)
    (hadmits : s.Admits (.resync p kind)) (h : Settled s (.resync p kind) e t) : t.InStep := by
  obtain ⟨hkind, hnew⟩ := hadmits
  obtain ⟨source, found, hdisk, hextract, rfl⟩ := h.of_reread hkind
  obtain ⟨q, hq, rfl⟩ : ∃ q : Page, q.IsProper ∧ q.text = source := by
    cases hp : s.state.files.get? (s.resolve p) with
    | some text =>
        obtain ⟨q, hq, htext, -⟩ := hs.shows (by rw [hp]; rfl) hdisk
        exact ⟨q, hq, htext⟩
    | none =>
        obtain ⟨q, hq, htext, -⟩ := hnew hp source hdisk
        exact ⟨q, hq, htext⟩
  obtain rfl := Except.ok.inj ((Page.extract_text hq s.config.style).symm.trans hextract)
  obtain ⟨hturned, hout⟩ := State.turned_resync hs.tidy
    (hs.covers hq hdisk fun hp => hnew hp _ hdisk) q.text
  refine hs.turn hturned rfl rfl (fun r => ?_) ⟨q, hq, rfl, hout ▸ .refl _⟩
  split_ifs with hsame
  · rw [← Storage.Disk.get?_congr hsame, hdisk]
  · rfl

/-- **A call leaves a project in step** if it is admitted. -/
theorem Session.InStep.perform (hs : s.InStep) (hstyle : s.config.style.IsProper)
    (hadmits : s.Admits call) :
    (s.perform call).2.InStep ∧ (s.perform call).2.config = s.config := by
  rcases perform_cases s call with ⟨f, hf, -⟩ | ⟨p, u, -, -, hlocked⟩ | ⟨e, t, ht, hsettled⟩
  · rw [hf]
    exact ⟨hs, rfl⟩
  · rw [Session.isLocked, hs.free] at hlocked
    cases hlocked
  · rw [ht]
    refine ⟨?_, by cases hsettled <;> rfl⟩
    cases call with
    | add c file target => exact hs.add hstyle hadmits hsettled
    | update i u => exact hs.update hadmits hsettled
    | remove i => exact hs.remove hadmits hsettled
    | resync p kind => exact hs.resync hadmits hsettled

/-! ### Runs -/

/-- A project of which nothing is known is in step with its files. -/
lemma inStep_start (config : Config) (root : Path) (d : Storage.Disk) :
    (Session.start config root d).InStep :=
  ⟨rfl, ⟨List.nodup_nil, .refl _, by simp [Session.start, State.ofRoot]⟩,
    by simp [Session.start, State.ofRoot], by simp [Session.start, State.ofRoot, Storage.Files.get?]⟩

/-- **Nothing that is known is missing**: as long as every call is admitted, each component that is
known stands in the file that is recorded for it, in every project that the calls lead through. -/
theorem states_present (hs : s.InStep) (hstyle : s.config.style.IsProper) (calls : List Call)
    (hadmits : EveryCall Session.Admits s (calls.map .call)) :
    ∀ t ∈ s.states (calls.map .call), ∀ i ∈ idsAll t.state.components,
      ∃ p text found, t.state.owners.lookup i = some p ∧ t.state.files.get? p = some text
        ∧ Edit.extract text t.config.style = .ok found ∧ i ∈ idsAll found := by
  induction calls generalizing s with
  | nil =>
      intro t ht i hi
      obtain rfl := List.mem_singleton.mp ht
      exact hs.exists_mem_extract hi
  | cons call calls ih =>
      obtain ⟨hnext, hconfig⟩ := hs.perform hstyle (hadmits.1 _ rfl)
      intro t ht
      rcases List.mem_cons.mp ht with rfl | ht
      · exact fun i hi => hs.exists_mem_extract hi
      · exact ih hnext (hconfig ▸ hstyle) hadmits.2 t ht

/-- What is removed is not the root of a page if no file on the disk begins with it. -/
lemma Session.fits_remove (h : ∀ f ∈ s.disk.files, Edit.rootMarker? f.2 s.config.style ≠ some i) :
    s.Fits (.remove i) := by
  intro p q hq hdisk
  obtain ⟨r, hr⟩ := Storage.Files.exists_mem_of_get? hdisk
  have hroot := h _ hr
  rwa [Edit.rootMarker?_text hq] at hroot

/-- A project with a page that has a heading in its root. -/
def headingProject : Session :=
  .start .standard ⟨"/p"⟩ (.ofFiles [(⟨"/p/page.tsx"⟩, Edit.headingPage.text)])

/-- The page is read, a component is added to it, and its heading is removed. -/
def headingCalls (c : Component) (target : Option (List Nat)) : List Call :=
  [.resync ⟨"page.tsx"⟩ .changed, .add c (some ⟨"page.tsx"⟩) target, .remove "title"]

/-- A note is added beside the heading, and stands in the page without it. -/
theorem states_present_headingProject :
    let calls := headingCalls (.ofTag "note" "p") none
    headingProject.InStep ∧ headingProject.config.style.IsProper
      ∧ EveryCall Session.Admits headingProject (calls.map .call)
      ∧ ∃ t ∈ headingProject.states (calls.map .call), idsAll t.state.components = ["note"]
        ∧ ∃ p text found, t.state.owners.lookup "note" = some p
          ∧ t.state.files.get? p = some text ∧ Edit.extract text t.config.style = .ok found
          ∧ "note" ∈ idsAll found := by
  intro calls
  have hs : headingProject.InStep := inStep_start _ _ _
  have hstyle : headingProject.config.style.IsProper := Markup.Style.isProper_standard
  have hadmits : EveryCall Session.Admits headingProject (calls.map .call) := by
    refine ⟨?_, ?_, ?_, trivial⟩
    · rintro _ ⟨⟩
      refine ⟨by decide, fun _ text htext => ⟨Edit.headingPage, Edit.isProper_headingPage, ?_, ?_, ?_⟩⟩
      · exact Option.some.inj htext
      · decide
      · simp [headingProject, Session.start, State.ofRoot]
    · intro r hr
      obtain rfl := Option.some.inj hr
      refine ⟨fun _ _ _ _ => ?_, by decide, by decide +kernel, by decide +kernel⟩
      change Component.isPrintable _
      decide +kernel
    · intro r hr
      obtain rfl := Option.some.inj hr
      exact Session.fits_remove (by decide +kernel)
  have hlast : ∃ t ∈ headingProject.states (calls.map .call),
      idsAll t.state.components = ["note"] := by
    decide +kernel
  obtain ⟨t, ht, hids⟩ := hlast
  exact ⟨hs, hstyle, hadmits, t, ht, hids,
    states_present hs hstyle calls hadmits t ht "note" (by simp [hids])⟩

/-- A badge is added within the heading, goes with it from the page, and is known still. -/
theorem states_absent_headingProject :
    let calls := headingCalls (.ofTag "badge" "span") (some [0])
    headingProject.InStep ∧ headingProject.config.style.IsProper
      ∧ (∀ call ∈ calls, call.LeavesChildren)
      ∧ ∃ t ∈ headingProject.states (calls.map .call), idsAll t.state.components = ["badge"]
        ∧ t.state.owners.lookup "badge" = some ⟨"/p/page.tsx"⟩
        ∧ ∃ text ∈ t.state.files.get? ⟨"/p/page.tsx"⟩,
          (Edit.extract text t.config.style).toOption.map idsAll = some [] := by
  intro calls
  exact ⟨inStep_start _ _ _, Markup.Style.isProper_standard, by decide, by decide +kernel⟩

end CanvasSync.Project
