import CanvasSync.Proofs.Script.Elements
import CanvasSync.Proofs.Script.Phrases
import CanvasSync.Proofs.Script.Stretches
import CanvasSync.Script.Parse

/-!
Where markup stands in a script.

* `over_elementName`, `over_namedAttribute`: names and attributes end with no blank;
* `laid_attributes`, `laid_content`: attributes, and the nodes in a content, stand in order;
* `tags_markup`: an element or a fragment runs from a less-than sign to a greater-than sign, and
  what it consists of stands in order within it;
* `Closed`: what that needs of the other parts of the grammar, which have it at every depth;
* `isLaid_of_parse?`: the index of a script is laid out in its text.
-/

namespace CanvasSync.Script

open CanvasSync.Markup (AreLaid AttributesLaid Attribute AttributeValue Node Place Tree)
open CanvasSync.Text (endsSolid)
open Cursor (Leads)
open Reader

variable {t w : Text} {s s' s'' : State} {ctx : Context} {x : String}

namespace Grammar

section

set_option synthInstance.maxSize 1000

instance : Quiet markupName := by
  unfold markupName
  have hchange : Quiet (change fun s =>
      let c := s.after.dropWhile fun x => Character.isNamePart x || x = '-'
      { s with token := { s.token with span := ⟨s.token.span.start, c.offset⟩ }, after := c }) :=
    ⟨fun h => by cases h; rfl⟩
  infer_instance

instance : Quiet namedMarkup := by
  unfold namedMarkup
  infer_instance

instance (n : Nat) : Quiet (nameParts n) := by
  induction n with
  | zero => exact inferInstanceAs (Quiet fail)
  | succ n ih =>
      unfold nameParts
      infer_instance

instance : Quiet elementName := by
  unfold elementName
  infer_instance

instance (x : String) (inMarkup : Bool) : Quiet (closeWith x inMarkup) := by
  unfold closeWith
  infer_instance

instance (named inMarkup : Bool) : Quiet (closingTag named inMarkup) := by
  unfold closingTag
  dsimp only
  infer_instance

instance : Quiet tokenText := by
  unfold tokenText
  infer_instance

instance (rules : Rules) (n : Nat) : Quiet (content rules n) := by
  induction n with
  | zero => exact inferInstanceAs (Quiet fail)
  | succ n ih =>
      unfold content
      infer_instance

end

/-! ### Names -/

/-- A name is taken with the hyphens and the characters of names behind its first word. -/
lemma over_markupName {u : Unit} (hs : s.Stands t) (h : markupName ctx s = some (u, s')) :
    ∃ w, s.Over t w s' := by
  have hword : s.token.isAnyWord := by
    rw [markupName, bind_token] at h
    obtain ⟨_, _, hneed, -⟩ := bind_eq_some h
    exact (need_eq_some hneed).1
  rw [markupName_apply hword] at h
  cases h
  obtain ⟨w, hw, hfits⟩ := hs.token.text
  have hkind (w : Text) : s.token.kind.Fits w ↔ endsSolid w := by
    unfold Token.isAnyWord at hword
    split at hword
    · next hk => rw [hk]; exact Iff.rfl
    · cases hword
  have hparts := Cursor.reaches_dropWhile isMarkupPart s.after
  have hsolid : endsSolid (w ++ s.after.rest.takeWhile isMarkupPart) := by
    by_cases hnil : s.after.rest.takeWhile isMarkupPart = []
    · rw [hnil, List.append_nil]
      exact (hkind w).mp hfits
    · refine Text.endsSolid_append w (Lexer.endsSolid_of_forall (fun y hy => ?_) hnil)
      exact Lexer.isBlank_of_isMarkupPart (List.mem_takeWhile_imp hy)
  have hwhole := hw.append hparts
  have hcovers : Token.Covers { s.token with
      span := ⟨s.here.offset, (s.after.dropWhile isMarkupPart).offset⟩ } s.here
      (s.after.dropWhile isMarkupPart) := ⟨⟨_, hwhole, (hkind _).mpr hsolid⟩, rfl⟩
  have hgoes := hs.goes_retold hcovers
  exact ⟨_, ⟨hgoes.trans (hgoes.stands.goes_moved Lexer.moves_next),
    ⟨_, hwhole, rfl⟩, hsolid⟩⟩

instance : Steady markupName :=
  ⟨fun hs h => let ⟨_, hover⟩ := over_markupName hs h; hover.goes⟩

/-- A name that is given back is what stands between the two states. -/
lemma over_namedMarkup (hs : s.Stands t) (h : namedMarkup ctx s = some (w, s')) :
    s.Over t w s' := by
  rw [namedMarkup, bind_state] at h
  obtain ⟨_, s₁, hname, hrest⟩ := bind_eq_some h
  rw [bind_lastStop] at hrest
  cases hrest
  obtain ⟨w, hw⟩ := over_markupName hs hname
  rwa [hw.upTo_eq]

instance : Steady namedMarkup := ⟨fun hs h => (over_namedMarkup hs h).goes⟩

/-- The parts of a name behind its first one end it, if there are any. -/
lemma over_nameParts {n : Nat} {parts : List Text} (hs : s.Stands t)
    (h : nameParts n ctx s = some (parts, s')) : s' = s ∨ ∃ w, s.Over t w s' := by
  induction n generalizing s parts with
  | zero => cases h
  | succ n ih =>
      rw [nameParts] at h
      obtain ⟨dot, s₁, hdot, hrest⟩ := bind_eq_some h
      rcases trySign_eq_some hdot with ⟨rfl, -, rfl⟩ | ⟨rfl, rfl⟩
      · rw [if_pos rfl] at hrest
        obtain ⟨part, s₂, hpart, hrest⟩ := bind_eq_some hrest
        obtain ⟨_, s₃, hneed, hbehind⟩ := bind_eq_some hrest
        obtain ⟨-, rfl⟩ := need_eq_some hneed
        obtain ⟨parts', s₄, hparts, hend⟩ := bind_eq_some hbehind
        cases hend
        have hmoved := hs.goes_moved Lexer.moves_next
        have hover := over_namedMarkup hmoved.stands hpart
        refine .inr ?_
        rcases ih hover.goes.stands hparts with rfl | ⟨w, hw⟩
        · exact hmoved.over hover
        · exact (hmoved.trans hover.goes).over hw
      · rw [if_neg (by simp)] at hrest
        cases hrest
        exact .inl rfl

/-- The name of an element is what stands between the two states. -/
lemma over_elementName {parts : List Text} (hs : s.Stands t)
    (h : elementName ctx s = some ((parts, w), s')) : s.Over t w s' := by
  rw [elementName, bind_state] at h
  obtain ⟨first, s₁, hfirst, hrest⟩ := bind_eq_some h
  obtain ⟨colon, s₂, hcolon, hbehind⟩ := bind_eq_some hrest
  have hover := over_namedMarkup hs hfirst
  suffices hwhole : w = Text.upTo (s'.lastStop - s.here.offset) s.here.rest ∧ ∃ w, s.Over t w s' by
    obtain ⟨rfl, w, hw⟩ := hwhole
    rwa [hw.upTo_eq]
  rcases trySign_eq_some hcolon with ⟨rfl, -, rfl⟩ | ⟨rfl, rfl⟩
  · rw [if_pos rfl] at hbehind
    obtain ⟨part, s₃, hpart, hend⟩ := bind_eq_some hbehind
    cases hend
    have hmoved := hover.goes.stands.goes_moved Lexer.moves_next
    exact ⟨rfl, (hover.goes.trans hmoved).over (over_namedMarkup hmoved.stands hpart)⟩
  · rw [if_neg (by simp)] at hbehind
    obtain ⟨parts', s₃, hparts, hend⟩ := bind_eq_some hbehind
    cases hend
    refine ⟨rfl, ?_⟩
    rcases over_nameParts hover.goes.stands hparts with rfl | ⟨w, hw⟩
    · exact ⟨_, hover⟩
    · exact hover.goes.over hw

instance : Steady elementName := ⟨fun hs h => (over_elementName hs h).goes⟩

/-! ### Attributes -/

/-- What the parts of the grammar do: they go on, and markup ends with no blank. -/
class Closed (rules : Rules) : Prop where
  steady (r : Rule) : Steady (rules r)
  over_markup {t : Text} {ctx : Context} {s s' : State} {shape : Shape} {inMarkup : Bool} :
    s.Stands t → rules (.markup inMarkup) ctx s = some (shape, s') → ∃ w, s.Over t w s'

instance (rules : Rules) [Closed rules] (r : Rule) : Steady (rules r) := Closed.steady r

variable {rules : Rules} [Closed rules]

instance : Steady (braced rules) := by
  unfold braced
  infer_instance

instance (x : String) (inMarkup : Bool) : Steady (closeWith x inMarkup) := by
  unfold closeWith
  infer_instance

/-- A sign that is taken ends with no blank. -/
lemma over_sign {u : Unit} (hs : s.Stands t) (hx : endsSolid x.toList)
    (h : sign x ctx s = some (u, s')) : ∃ w, s.Over t w s' := by
  obtain ⟨hsign, rfl⟩ := sign_eq_some h
  rw [isSign_eq, decide_eq_true_eq] at hsign
  refine hs.over_moved Lexer.moves_next fun w hw => ?_
  rw [hsign] at hw
  exact hw ▸ hx

instance : Steady (bracedValue rules) := by
  unfold bracedValue
  infer_instance

lemma over_bracedValue {u : Unit} (hs : s.Stands t) (h : bracedValue rules ctx s = some (u, s')) :
    ∃ w, s.Over t w s' := by
  rw [bracedValue] at h
  obtain ⟨_, s₁, hopen, hrest⟩ := bind_eq_some h
  have hgoes := Steady.goes hs hopen
  rw [bind_onSign] at hrest
  have hsolid : endsSolid "\x7d".toList := by decide
  split at hrest
  · obtain ⟨_, s₂, hbraced, hclose⟩ := bind_eq_some hrest
    have hgoes' := hgoes.trans (Steady.goes hgoes.stands hbraced)
    obtain ⟨w, hw⟩ := over_sign hgoes'.stands hsolid hclose
    exact hgoes'.over hw
  · obtain ⟨w, hw⟩ := over_sign hgoes.stands hsolid hrest
    exact hgoes.over hw

/-- The value of an attribute ends with no blank. -/
lemma over_attributeValue {v : AttributeValue} (hs : s.Stands t)
    (h : attributeValue rules ctx s = some (v, s')) : ∃ w, s.Over t w s' := by
  rw [attributeValue, bind_state] at h
  replace h := (apply_eq_bind _).symm.trans h
  dsimp only at h
  split at h
  case h_1 value hkind =>
      cases h
      exact hs.over_moved Lexer.moves_next fun w hw => by rw [hkind] at hw; exact hw
  case h_2 | h_3 =>
      rw [← apply_eq_bind] at h
      split at h
      · obtain ⟨shape, s₁, hread, hend⟩ := bind_eq_some h
        cases hend
        exact Closed.over_markup hs hread
      · obtain ⟨_, s₁, hread, hend⟩ := bind_eq_some h
        cases hend
        exact over_bracedValue hs hread
  case h_4 => cases h

/-- Behind the name of an attribute comes its value, if it has one. -/
lemma over_attributeRest {a : Attribute} {start : Nat} {name : Text} (hover : s.Over t w s')
    (h : attributeRest rules start name ctx s' = some (a, s'')) :
    a.span = ⟨start, s''.lastStop⟩ ∧ ∃ w, s.Over t w s'' := by
  rw [attributeRest] at h
  obtain ⟨value, s₁, hvalue, hend⟩ := bind_eq_some h
  cases hend
  refine ⟨rfl, ?_⟩
  rw [valueBehindName, bind_onSign] at hvalue
  split at hvalue
  · obtain ⟨_, s₂, hequals, hread⟩ := bind_eq_some hvalue
    have hgoes := hover.goes.trans (Steady.goes hover.goes.stands hequals)
    obtain ⟨w', hw'⟩ := over_attributeValue hgoes.stands hread
    exact hgoes.over hw'
  · cases hvalue
    exact ⟨w, hover⟩

/-- An attribute covers what is taken, and ends with no blank. -/
lemma over_namedAttribute {a : Attribute} (hs : s.Stands t)
    (h : namedAttribute rules ctx s = some (a, s')) :
    a.span = ⟨s.here.offset, s'.lastStop⟩ ∧ ∃ w, s.Over t w s' := by
  rw [namedAttribute, bind_state] at h
  obtain ⟨_, s₁, hname, hrest⟩ := bind_eq_some h
  obtain ⟨colon, s₂, hcolon, hbehind⟩ := bind_eq_some hrest
  have hover := over_namedMarkup hs hname
  rcases trySign_eq_some hcolon with ⟨rfl, -, rfl⟩ | ⟨rfl, rfl⟩
  · rw [if_pos rfl] at hbehind
    obtain ⟨_, s₃, hpart, hvalue⟩ := bind_eq_some hbehind
    have hmoved := hover.goes.trans (hover.goes.stands.goes_moved Lexer.moves_next)
    obtain ⟨w, hw⟩ := hmoved.over (over_namedMarkup hmoved.stands hpart)
    exact over_attributeRest hw ((attributeRest_apply rules _ _).symm.trans hvalue)
  · rw [if_neg (by simp)] at hbehind
    exact over_attributeRest hover ((attributeRest_apply rules _ _).symm.trans hbehind)

instance : Steady (namedAttribute rules) :=
  ⟨fun hs h => let ⟨_, _, hover⟩ := over_namedAttribute hs h; hover.goes⟩

instance (n : Nat) : Steady (attributes rules n) := by
  induction n with
  | zero => exact inferInstanceAs (Steady fail)
  | succ n ih =>
      unfold attributes
      infer_instance

/-- The attributes of an opening tag stand in order. -/
lemma laid_attributes {n : Nat} {as : List Attribute} (hs : s.Stands t)
    (h : attributes rules n ctx s = some (as, s')) :
    AttributesLaid t s.here.offset as s'.here.offset := by
  induction n generalizing s as with
  | zero => cases h
  | succ n ih =>
      have hgoes := Steady.goes hs h
      rw [attributes, bind_token] at h
      split at h
      · cases h
        exact hgoes.here.le
      · split at h
        · obtain ⟨_, s₁, hadvance, hrest⟩ := bind_eq_some h
          obtain ⟨_, s₂, hdots, hrest₂⟩ := bind_eq_some hrest
          obtain ⟨_, s₃, hbraced, hrest₃⟩ := bind_eq_some hrest₂
          obtain ⟨_, s₄, hclose, hbehind⟩ := bind_eq_some hrest₃
          have hgoes₁ := Steady.goes hs hadvance
          have hgoes₂ := hgoes₁.trans (Steady.goes hgoes₁.stands hdots)
          have hgoes₃ := hgoes₂.trans (Steady.goes hgoes₂.stands hbraced)
          have hgoes₄ := hgoes₃.trans (Steady.goes hgoes₃.stands hclose)
          exact (ih hgoes₄.stands hbehind).mono hgoes₄.here.le
        · obtain ⟨a, s₁, hread, hrest⟩ := bind_eq_some h
          obtain ⟨as', s₂, hbehind, hend⟩ := bind_eq_some hrest
          cases hend
          obtain ⟨hspan, w, hover⟩ := over_namedAttribute hs hread
          have hcovers := hover.covers hs
          rw [← hspan] at hcovers
          refine ⟨by rw [hspan], ⟨w, hcovers, hover.solid⟩, ?_⟩
          rw [hspan]
          exact (ih hover.goes.stands hbehind).mono hover.goes.stands.lastStop_le

/-! ### Content and tags -/

instance : Steady tokenText := by
  unfold tokenText
  infer_instance

set_option synthInstance.maxSize 1000 in
instance (n : Nat) : Steady (content rules n) := by
  induction n with
  | zero => exact inferInstanceAs (Steady fail)
  | succ n ih =>
      unfold content
      infer_instance

/-- The nodes in a content are laid out between its ends. -/
lemma laid_content {n : Nat} {pieces : List Piece} {nodes : List (Place × Tree)} (hs : s.Stands t)
    (h : content rules n ctx s = some ((pieces, nodes), s')) :
    AreLaid t s.here.offset (nodes.map Prod.snd) s'.here.offset := by
  induction n generalizing s pieces nodes with
  | zero => cases h
  | succ n ih =>
      have hgoes := Steady.goes hs h
      rw [content, bind_token] at h
      split at h
      · obtain ⟨text, s₁, htext, hrest⟩ := bind_eq_some h
        obtain ⟨_, s₂, hadvance, hrest₂⟩ := bind_eq_some hrest
        obtain ⟨⟨pieces', nodes'⟩, s₃, hcontent, hend⟩ := bind_eq_some hrest₂
        cases hend
        have hgoes₁ := Steady.goes hs htext
        have hgoes₂ := hgoes₁.trans (Steady.goes hgoes₁.stands hadvance)
        exact (ih hgoes₂.stands hcontent).mono hgoes₂.here.le (Nat.le_refl _)
      · split at h
        · obtain ⟨_, s₁, hadvance, hrest⟩ := bind_eq_some h
          obtain ⟨⟨piece, found⟩, s₂, hfound, hrest₂⟩ := bind_eq_some hrest
          obtain ⟨_, s₃, hclose, hrest₃⟩ := bind_eq_some hrest₂
          obtain ⟨⟨pieces', nodes'⟩, s₄, hcontent, hend⟩ := bind_eq_some hrest₃
          cases hend
          have hgoes₁ := Steady.goes hs hadvance
          obtain ⟨hgoes₂, hlaid⟩ := laid_of_gathered hgoes₁.stands hfound
          have hgoes₃ := Steady.goes hgoes₂.stands hclose
          have hbehind := (ih hgoes₃.stands hcontent).mono hgoes₃.here.le (Nat.le_refl _)
          rw [List.map_append, List.map_map]
          have hwhole := (hlaid.append hbehind).mono hgoes₁.here.le (Nat.le_refl _)
          simpa [Function.comp_def] using hwhole
        · split at h
          · rw [bind_following] at h
            split at h
            · cases h
              exact .nil (Nat.le_refl _)
            · obtain ⟨⟨shape, found⟩, s₁, hfound, hrest⟩ := bind_eq_some h
              obtain ⟨⟨pieces', nodes'⟩, s₂, hcontent, hend⟩ := bind_eq_some hrest
              cases hend
              obtain ⟨hgoes₁, hlaid⟩ := laid_of_gathered hs hfound
              rw [List.map_append, List.map_map]
              have hwhole := hlaid.append (ih hgoes₁.stands hcontent)
              simpa [Function.comp_def] using hwhole
          · cases h

/-- A sign at the end of a tag is the last that is taken. -/
lemma closeWith_eq_some {u : Unit} {inMarkup : Bool}
    (h : closeWith x inMarkup ctx s = some (u, s')) :
    s.token.isSign x ∧ s'.lastStop = s.token.span.stop := by
  rw [closeWith, bind_onSign] at h
  obtain ⟨_, s₁, hneed, hrest⟩ := bind_eq_some h
  obtain ⟨hsign, rfl⟩ := need_eq_some hneed
  refine ⟨hsign, ?_⟩
  split at hrest <;> cases hrest <;> rfl

/-- Between the two signs of a tag anything may stand. -/
lemma tags_of_goes {s₁ : State} {u u' : Unit} {inMarkup : Bool} (hs : s.Stands t)
    (hopen : sign "<" ctx s = some (u, s₁)) (hgoes : s₁.Goes t s')
    (hclose : closeWith ">" inMarkup ctx s' = some (u', s'')) : s.Tags t s'' := by
  obtain ⟨hless, rfl⟩ := sign_eq_some hopen
  obtain ⟨hgreater, hstop⟩ := closeWith_eq_some hclose
  have hmoved := hs.goes_moved Lexer.moves_next
  have hfirst := hs.reaches_sign hless
  have hlast := hgoes.stands.reaches_sign hgreater
  obtain ⟨v, hv⟩ := (Lexer.moves_next.leads s.after).trans hgoes.here
  refine ⟨(hmoved.trans hgoes).trans (Steady.goes hgoes.stands hclose), _,
    ⟨s'.after, (hfirst.append hv).append hlast, ?_⟩, v, rfl⟩
  rw [hstop, hgoes.stands.token.span_eq]

/-- A closing tag runs from its less-than sign to its greater-than sign. -/
lemma tags_closingTag {named inMarkup : Bool} {name : List Text} {span : Span} (hs : s.Stands t)
    (h : closingTag named inMarkup ctx s = some ((name, span), s')) :
    s.Tags t s' ∧ span = ⟨s.here.offset, s'.lastStop⟩ := by
  rw [closingTag, bind_start] at h
  obtain ⟨_, s₁, hopen, hrest⟩ := bind_eq_some h
  obtain ⟨_, s₂, hslash, hrest₂⟩ := bind_eq_some hrest
  have hstands := (Steady.goes hs hopen).stands
  have hgoes := Steady.goes hstands hslash
  have hstart : s.token.span.start = s.here.offset := by rw [hs.token.span_eq]
  rw [hstart] at hrest₂
  dsimp only at hrest₂
  split at hrest₂
  · obtain ⟨name', s₃, hname, hrest₃⟩ := bind_eq_some hrest₂
    obtain ⟨_, s₄, hclose, hend⟩ := bind_eq_some hrest₃
    cases hend
    exact ⟨tags_of_goes hs hopen (hgoes.trans (Steady.goes hgoes.stands hname)) hclose, rfl⟩
  · obtain ⟨name', s₃, hname, hrest₃⟩ := bind_eq_some hrest₂
    obtain ⟨_, s₄, hclose, hend⟩ := bind_eq_some hrest₃
    cases hname
    cases hend
    exact ⟨tags_of_goes hs hopen hgoes hclose, rfl⟩

/-- A node that is recorded behind the end of its text stands there. -/
lemma goes_record {n : Node} {children : List (Place × Tree)} {u : Unit}
    (htags : s.Tags t s') (htrees : s'.trees = s.trees)
    (hspan : n.span = ⟨s.here.offset, s'.lastStop⟩)
    (hn : n.IsLaid t) (hchildren : AreLaid t n.span.start (children.map Prod.snd) n.span.stop)
    (h : record (.node n children) ctx s' = some (u, s'')) : s.Tags t s'' := by
  cases h
  have hstands := htags.goes.stands
  refine ⟨⟨⟨hstands.here, hstands.token, hstands.stop⟩, htags.goes.here, htags.goes.stop,
    [.node n children], ?_, ?_⟩, htags.text⟩
  · change _ :: s'.trees = _
    rw [htrees]
    rfl
  · refine .cons (by rw [hspan]) hn hchildren (.nil ?_)
    rw [hspan]
    exact hstands.lastStop_le

/-- A node with a closing tag is laid out if its two tags and its attributes are. -/
lemma isLaid_of_closed {n : Node} {s₁ s₂ s₃ : State} (hs : s.Stands t) (hopen : s.Tags t s₁)
    (hgoes : s₁.Goes t s₂) (hclose : s₂.Tags t s₃)
    (hspan : n.span = ⟨s.here.offset, s₃.lastStop⟩)
    (hopening : n.opening = ⟨s.here.offset, s₁.lastStop⟩)
    (hclosing : n.closing = some ⟨s₂.here.offset, s₃.lastStop⟩)
    (htag : n.tag.toList = [] ∨ endsSolid n.tag.toList)
    (hattributes : ∃ stop, AttributesLaid t (s.here.offset + 1 + Text.size n.tag.toList)
      n.attributes stop ∧ stop + 1 ≤ s₁.lastStop) : n.IsLaid t := by
  have hstands := hopen.goes.stands
  refine ⟨?_, ?_, ?_, ?_, htag, ?_⟩
  · rw [hspan]
    exact (hopen.append hgoes hclose).covers hs
  · rw [hopening]
    exact hopen.covers hs
  · rw [hopening, hspan]
  · intro c hc
    rw [hclosing] at hc
    cases hc
    rw [hopening]
    exact ⟨Nat.le_trans hstands.lastStop_le hgoes.here.le, hclose.covers hgoes.stands⟩
  · simpa [Node.selfClosing, hclosing, hopening] using hattributes

/-- A fragment is laid out where it stands. -/
lemma tags_fragment {inMarkup : Bool} {u : Unit} (hs : s.Stands t)
    (h : fragment rules inMarkup ctx s = some (u, s')) : s.Tags t s' := by
  rw [fragment, bind_state] at h
  obtain ⟨_, s₁, hless, hrest⟩ := bind_eq_some h
  obtain ⟨_, s₂, hgreater, hrest₂⟩ := bind_eq_some hrest
  rw [bind_lastStop] at hrest₂
  obtain ⟨⟨pieces, nodes⟩, s₃, hcontent, hrest₃⟩ := bind_eq_some hrest₂
  obtain ⟨⟨name, closing⟩, s₄, hclosing, hrecord⟩ := bind_eq_some hrest₃
  have hfirst := Steady.goes hs hless
  have hopen := tags_of_goes hs hless hfirst.stands.goes hgreater
  have hgoes := Steady.goes hopen.goes.stands hcontent
  obtain ⟨hclose, rfl⟩ := tags_closingTag hgoes.stands hclosing
  have htrees : s₄.trees = s.trees := by
    rw [Quiet.trees_eq hclosing, Quiet.trees_eq hcontent, Quiet.trees_eq hgreater,
      Quiet.trees_eq hless]
  refine goes_record (hopen.append hgoes hclose) htrees rfl ?_ ?_ hrecord
  · refine isLaid_of_closed hs hopen hgoes hclose rfl rfl rfl (.inl rfl) ⟨_, Nat.le_refl _, ?_⟩
    exact hopen.le
  · have hlaid := laid_content hopen.goes.stands hcontent
    exact hlaid.mono hopen.goes.here.le (Nat.le_trans (Nat.le_add_right _ 2) hclose.le)

instance (n : Nat) : Steady (openingAttributes rules n) := by
  unfold openingAttributes
  infer_instance

/-- What stands in an opening tag behind its name is laid out. -/
lemma laid_openingAttributes {n : Nat} {as : List Attribute} {found : List Tree} (hs : s.Stands t)
    (h : gathered (openingAttributes rules n) ctx s = some ((as, found), s')) :
    s.Goes t s' ∧ AttributesLaid t s.here.offset as s'.here.offset
      ∧ AreLaid t s.here.offset found s'.here.offset := by
  obtain ⟨hgoes, hlaid⟩ := laid_of_gathered hs h
  refine ⟨hgoes, ?_, hlaid⟩
  obtain ⟨s₁, hread, rfl⟩ := gathered_eq_some h
  have hs₀ : State.Stands t { s with trees := [] } := ⟨hs.here, hs.token, hs.stop⟩
  rw [openingAttributes] at hread
  obtain ⟨angle, s₂, hangle, hrest⟩ := bind_eq_some hread
  have hgoes₂ := Steady.goes hs₀ hangle
  split at hrest
  · obtain ⟨_, s₃, harguments, hbehind⟩ := bind_eq_some hrest
    have hgoes₃ := hgoes₂.trans (Steady.goes hgoes₂.stands harguments)
    exact (laid_attributes hgoes₃.stands hbehind).mono hgoes₃.here.le
  · exact (laid_attributes hgoes₂.stands hrest).mono hgoes₂.here.le

/-- The signs that end an opening tag stand before the end of the last token. -/
lemma le_lastStop_of_closeWith {selfClosing inMarkup : Bool} {u : Unit} (hs : s.Stands t)
    (hslash : trySign "/" ctx s = some (selfClosing, s'))
    (hgreater : closeWith ">" inMarkup ctx s' = some (u, s'')) :
    s.here.offset + (if selfClosing then 2 else 1) ≤ s''.lastStop := by
  have hgoes := Steady.goes hs hslash
  obtain ⟨hsign, hlast⟩ := closeWith_eq_some hgreater
  have hend : s''.lastStop = s'.here.offset + 1 := by
    rw [hlast, hgoes.stands.token.span_eq]
    exact (hgoes.stands.reaches_sign hsign).offset_eq
  rw [hend]
  rcases trySign_eq_some hslash with ⟨rfl, hsign', rfl⟩ | ⟨rfl, rfl⟩
  · have hle : s.here.offset + 1 ≤ _ := hs.le_moved Lexer.moves_next hsign'
    rw [if_pos rfl]
    omega
  · rw [if_neg (by simp)]

/-- What an opening tag consists of is laid out in it: behind the less-than sign stand the name of
the tag, its attributes, and the signs that end it. -/
lemma tags_opening {selfClosing inMarkup : Bool} {u v : Unit} {name : List Text} {tag : Text}
    {n : Nat} {as : List Attribute} {found : List Tree} {s₁ s₂ s₃ s₄ s₅ : State} (hs : s.Stands t)
    (hless : sign "<" ctx s = some (u, s₁)) (hname : elementName ctx s₁ = some ((name, tag), s₂))
    (hattributes : gathered (openingAttributes rules n) ctx s₂ = some ((as, found), s₃))
    (hslash : trySign "/" ctx s₃ = some (selfClosing, s₄))
    (hgreater : closeWith ">" inMarkup ctx s₄ = some (v, s₅)) :
    s.Tags t s₅ ∧ endsSolid tag
      ∧ AttributesLaid t (s.here.offset + 1 + Text.size tag) as s₃.here.offset
      ∧ s₃.here.offset + (if selfClosing then 2 else 1) ≤ s₅.lastStop
      ∧ AreLaid t s.here.offset found s₅.lastStop := by
  have hfirst := Steady.goes hs hless
  have hover := over_elementName hfirst.stands hname
  obtain ⟨hbehind, has, hfound⟩ := laid_openingAttributes hover.goes.stands hattributes
  have hgoes₄ := (hover.goes.trans hbehind).trans (Steady.goes hbehind.stands hslash)
  have hopen := tags_of_goes hs hless hgoes₄ hgreater
  have hstart : s.here.offset + 1 + Text.size tag ≤ s₂.here.offset := by
    obtain ⟨hsign, rfl⟩ := sign_eq_some hless
    have hle : s.here.offset + 1 ≤ _ := hs.le_moved Lexer.moves_next hsign
    have hstop := hover.stop_eq
    have hnext := hover.goes.stands.lastStop_le
    omega
  have hstop := le_lastStop_of_closeWith hbehind.stands hslash hgreater
  exact ⟨hopen, hover.solid, has.mono hstart, hstop,
    hfound.mono (by omega) (by split at hstop <;> omega)⟩

/-- An element is laid out where it stands. -/
lemma tags_elementFrom {inMarkup : Bool} {u : Unit} (hs : s.Stands t)
    (h : elementFrom rules inMarkup ctx s = some (u, s')) : s.Tags t s' := by
  rw [elementFrom_apply] at h
  obtain ⟨_, s₁, hless, hrest⟩ := bind_eq_some h
  obtain ⟨⟨name, tag⟩, s₂, hname, hrest₂⟩ := bind_eq_some hrest
  obtain ⟨⟨as, found⟩, s₃, hattributes, hrest₃⟩ := bind_eq_some hrest₂
  dsimp only at hrest₃
  rw [elementRest] at hrest₃
  obtain ⟨selfClosing, s₄, hslash, hrest₄⟩ := bind_eq_some hrest₃
  obtain ⟨_, s₅, hgreater, hrest₅⟩ := bind_eq_some hrest₄
  rw [bind_lastStop] at hrest₅
  obtain ⟨hopen, hsolid, has, hstop, hfound⟩ :=
    tags_opening hs hless hname hattributes hslash hgreater
  have htrees₅ : s₅.trees = s.trees := by
    rw [Quiet.trees_eq hgreater, Quiet.trees_eq hslash, Quiet.trees_eq hattributes,
      Quiet.trees_eq hname, Quiet.trees_eq hless]
  have htag : (String.ofList tag).toList = [] ∨ endsSolid (String.ofList tag).toList := by
    rw [String.toList_ofList]
    exact .inr hsolid
  rw [← String.toList_ofList (l := tag)] at has
  have hinside : AreLaid t s.here.offset ((found.map fun t => (Place.opening, t)).map Prod.snd)
      s₅.lastStop := by
    rw [List.map_map]
    simpa [Function.comp_def] using hfound
  split at hrest₅
  · next hself =>
      rw [if_pos hself] at hstop
      refine goes_record hopen htrees₅ rfl ?_ hinside hrest₅
      exact ⟨hopen.covers hs, hopen.covers hs, rfl, (fun c hc => by cases hc), htag,
        s₃.here.offset, has, hstop⟩
  · next hself =>
      rw [if_neg hself] at hstop
      obtain ⟨⟨pieces, nodes⟩, s₆, hcontent, hrest₆⟩ := bind_eq_some hrest₅
      obtain ⟨⟨name', closing⟩, s₇, hclosing, hrest₇⟩ := bind_eq_some hrest₆
      obtain ⟨_, s₈, hcomplain, hrecord⟩ := bind_eq_some hrest₇
      have hgoes := Steady.goes hopen.goes.stands hcontent
      obtain ⟨hclose, rfl⟩ := tags_closingTag hgoes.stands hclosing
      have hstill : s₈.lastStop = s₇.lastStop := by
        rw [complainIf] at hcomplain
        split at hcomplain <;> cases hcomplain <;> rfl
      have htrees : s₈.trees = s.trees := by
        rw [Quiet.trees_eq hcomplain, Quiet.trees_eq hclosing, Quiet.trees_eq hcontent, htrees₅]
      refine goes_record ((hopen.append hgoes hclose).still
        (Steady.goes hclose.goes.stands hcomplain) hstill) htrees (hstill ▸ rfl) ?_ ?_
        hrecord
      · exact isLaid_of_closed hs hopen hgoes hclose rfl rfl rfl htag ⟨_, has, hstop⟩
      · have hlaid := laid_content hopen.goes.stands hcontent
        rw [List.map_append]
        refine (hinside.append (hlaid.mono ?_ ?_))
        · exact hopen.goes.stands.lastStop_le
        · exact Nat.le_trans (Nat.le_add_right _ 2) hclose.le

/-- Markup is laid out where it stands. -/
lemma tags_markup {inMarkup : Bool} {shape : Shape} (hs : s.Stands t)
    (h : markup rules inMarkup ctx s = some (shape, s')) : s.Tags t s' := by
  rw [markup, bind_onSign] at h
  obtain ⟨_, s₁, hneed, hrest⟩ := bind_eq_some h
  obtain ⟨-, rfl⟩ := need_eq_some hneed
  rw [bind_following] at hrest
  dsimp only at hrest
  split at hrest
  · obtain ⟨_, s₂, hread, hend⟩ := bind_eq_some hrest
    cases hend
    exact tags_fragment hs hread
  · obtain ⟨_, s₂, hread, hend⟩ := bind_eq_some hrest
    cases hend
    exact tags_elementFrom hs hread

/-! ### Whole scripts -/

instance (inMarkup : Bool) : Steady (markup rules inMarkup) :=
  ⟨fun hs h => (tags_markup hs h).goes⟩

/-- Every part of the grammar goes on in its text if the parts that it contains do. -/
instance closed_step : Closed (step rules) where
  steady r := by cases r <;> (unfold step; infer_instance)
  over_markup hs h := (tags_markup hs h).over

instance closed_rules (depth : Nat) : Closed (Grammar.rules depth) := by
  induction depth with
  | zero => exact ⟨fun _ => inferInstanceAs (Steady fail), fun _ h => by cases h⟩
  | succ depth ih => exact inferInstanceAs (Closed (step (Grammar.rules depth)))

end Grammar

/-- A script is read from its beginning, or from behind a line that names an interpreter. -/
lemma stands_start (t : Text) : (Script.start t).Stands t := by
  have hfirst : (⟨0, t⟩ : Cursor).Leads (afterInterpreter t) := by
    unfold afterInterpreter
    split
    · next rest =>
        exact Cursor.Leads.behind ['#', '!'] (Cursor.reaches_dropFrom _ 2 rest).leads
    · exact Leads.refl _
  have hhere := hfirst.trans (Lexer.moves_next.leads _)
  exact ⟨hhere, Lexer.moves_next.covers _, ⟨0, t⟩, Leads.refl _, hhere, rfl⟩

/-- **The index of a script is laid out in its text**: every node runs from a less-than sign to a
greater-than sign with its attributes in order, and of two nodes one is nested in the other, or they
are apart. -/
theorem isLaid_of_parse? {d : Markup.Document} (h : Markup.Document.parse? t = some d) :
    d.IsLaid t := by
  obtain ⟨script, hscript, rfl⟩ := Option.map_eq_some_iff.mp h
  rw [parse?] at hscript
  split at hscript
  · next u s hread =>
      split at hscript
      · cases hscript
      · cases hscript
        obtain ⟨ts, htrees, hlaid⟩ := (Steady.goes (stands_start t) hread).trees
        have hnone : (Script.start t).trees = [] := rfl
        rw [hnone, List.append_nil] at htrees
        have hforest : AreLaid t (Script.start t).here.offset s.trees.reverse s.here.offset := by
          rw [htrees, List.reverse_reverse]
          exact hlaid
        exact Markup.Document.isLaid_ofScript (s := ⟨s.trees.reverse, s.defaultExport⟩) hforest
  · cases hscript

end CanvasSync.Script
