import CanvasSync.Proofs.Script.Progress

/-!
Texts between the states of a reader.

* `State.Over`: what stands between two states ends with no blank;
* `State.Tags`: it runs from a less-than sign to a greater-than sign;
* `bind_eq_some`, `sign_eq_some`, ...: what readers that succeeded have done;
* `Reader.Quiet`: a reader records no markup.
-/

namespace CanvasSync

/-- What is reached over a text from a place of a text is covered by the span between. -/
lemma Script.Cursor.Reaches.covers {t w : Text} {c c' : Script.Cursor}
    (hc : (⟨0, t⟩ : Script.Cursor).Leads c) (h : c.Reaches w c') :
    (⟨c.offset, c'.offset⟩ : Span).Covers t w := by
  obtain ⟨a, ha⟩ := hc
  have hoffset : c.offset = Text.size a := by rw [ha.offset_eq, Nat.zero_add]
  refine ⟨a, c'.rest, ?_, ?_⟩
  · rw [List.append_assoc, ← h.rest_eq]
    exact ha.rest_eq
  · rw [h.offset_eq, hoffset]

namespace Script

open CanvasSync.Markup (IsTagged Tree)
open CanvasSync.Text (endsSolid)
open Cursor (Reaches Leads)
open Reader

variable {t w w' : Text} {s s' s'' : State} {ctx : Context} {α β : Type} {a : α} {x : String}

/-! ### Texts between two states -/

/-- The token before the one at hand ends behind a text that begins here and ends with no blank. -/
structure State.Over (t : Text) (s : State) (w : Text) (s' : State) : Prop where
  goes : s.Goes t s'
  text : ∃ c, s.here.Reaches w c ∧ c.offset = s'.lastStop
  solid : endsSolid w

/-- The text from here to the end of the token before the one at hand runs from a less-than sign to
a greater-than sign. -/
structure State.Tags (t : Text) (s s' : State) : Prop where
  goes : s.Goes t s'
  text : ∃ w, (∃ c, s.here.Reaches w c ∧ c.offset = s'.lastStop) ∧ IsTagged w

namespace State

lemma Goes.over (h : s.Goes t s') (h' : s'.Over t w s'') : ∃ w, s.Over t w s'' := by
  obtain ⟨v, hv⟩ := h.here
  obtain ⟨c, hc, hstop⟩ := h'.text
  exact ⟨v ++ w, h.trans h'.goes, ⟨c, hv.append hc, hstop⟩, Text.endsSolid_append v h'.solid⟩

lemma Over.covers (hs : s.Stands t) (h : s.Over t w s') :
    (⟨s.here.offset, s'.lastStop⟩ : Span).Covers t w := by
  obtain ⟨c, hc, hstop⟩ := h.text
  rw [← hstop]
  exact hc.covers hs.here

lemma Over.upTo_eq (h : s.Over t w s') :
    Text.upTo (s'.lastStop - s.here.offset) s.here.rest = w := by
  obtain ⟨c, hc, hstop⟩ := h.text
  rw [← hstop, hc.offset_eq, Nat.add_sub_cancel_left, hc.rest_eq, Text.upTo_size_append]

lemma Tags.covers (hs : s.Stands t) (h : s.Tags t s') :
    ∃ w, (⟨s.here.offset, s'.lastStop⟩ : Span).Covers t w ∧ IsTagged w := by
  obtain ⟨w, ⟨c, hc, hstop⟩, htagged⟩ := h.text
  exact ⟨w, hstop ▸ hc.covers hs.here, htagged⟩

/-- A tag takes at least its two signs. -/
lemma Tags.le (h : s.Tags t s') : s.here.offset + 2 ≤ s'.lastStop := by
  obtain ⟨w, ⟨c, hc, hstop⟩, v, rfl⟩ := h.text
  have hless : '<'.utf8Size = 1 := rfl
  have hgreater : '>'.utf8Size = 1 := rfl
  rw [← hstop, hc.offset_eq]
  simp only [Text.size_cons, Text.size_append, Text.size_nil]
  omega

/-- A tag ends with no blank. -/
lemma Tags.over (h : s.Tags t s') : ∃ w, s.Over t w s' := by
  obtain ⟨w, htext, v, rfl⟩ := h.text
  exact ⟨_, h.goes, htext, Text.endsSolid_append ('<' :: v) (by decide)⟩

/-- The text of a tag does not change while nothing is taken. -/
lemma Tags.still (h : s.Tags t s') (h' : s'.Goes t s'') (hstop : s''.lastStop = s'.lastStop) :
    s.Tags t s'' := by
  obtain ⟨w, ⟨c, hc, heq⟩, htagged⟩ := h.text
  exact ⟨h.goes.trans h', w, ⟨c, hc, heq.trans hstop.symm⟩, htagged⟩

/-- From a first tag to a last one runs a text between signs as well. -/
lemma Tags.append {s₁ s₂ : State} (h : s.Tags t s₁) (hgoes : s₁.Goes t s₂) (h' : s₂.Tags t s') :
    s.Tags t s' := by
  obtain ⟨v, hv⟩ := h.goes.here.trans hgoes.here
  obtain ⟨w, ⟨c, hc, hstop⟩, u, rfl⟩ := h.text
  obtain ⟨w', ⟨c', hc', hstop'⟩, u', rfl⟩ := h'.text
  refine ⟨(h.goes.trans hgoes).trans h'.goes, _, ⟨c', hv.append hc', hstop'⟩, ?_⟩
  have hle : s.here.offset + 2 ≤ s₂.here.offset :=
    Nat.le_trans h.le (Nat.le_trans h.goes.stands.lastStop_le hgoes.here.le)
  cases v with
  | nil =>
      have hsame := hv.offset_eq
      rw [Text.size_nil] at hsame
      omega
  | cons x v =>
      have hx := hc.rest_eq.symm.trans hv.rest_eq
      obtain ⟨rfl, -⟩ := List.cons.inj hx
      exact ⟨v ++ '<' :: u', by simp⟩

lemma Over.stop_eq (h : s.Over t w s') : s'.lastStop = s.here.offset + Text.size w := by
  obtain ⟨c, hc, hstop⟩ := h.text
  rw [← hstop, hc.offset_eq]

/-- The text does not change while nothing is taken. -/
lemma Over.still (h : s.Over t w s') (h' : s'.Goes t s'') (hstop : s''.lastStop = s'.lastStop) :
    s.Over t w s'' := by
  obtain ⟨c, hc, heq⟩ := h.text
  exact ⟨h.goes.trans h', ⟨c, hc, heq.trans hstop.symm⟩, h.solid⟩

/-- Behind the token at hand stands its text. -/
lemma Stands.over_moved {look : Cursor → Token × Cursor × Cursor} (hs : s.Stands t)
    (hlook : Lexer.Moves look) (hsolid : ∀ w, s.token.kind.Fits w → endsSolid w) :
    ∃ w, s.Over t w (Reader.State.moved s look) := by
  obtain ⟨w, hw, hfits⟩ := hs.token.text
  refine ⟨w, hs.goes_moved hlook, ⟨s.after, hw, ?_⟩, hsolid w hfits⟩
  change s.after.offset = s.token.span.stop
  rw [hs.token.span_eq]

/-- A sign stands as it is written. -/
lemma Stands.reaches_sign (hs : s.Stands t) (h : s.token.isSign x) :
    s.here.Reaches x.toList s.after := by
  obtain ⟨w, hw, hfits⟩ := hs.token.text
  rw [isSign_eq, decide_eq_true_eq] at h
  rw [h] at hfits
  rwa [hfits] at hw

/-- Behind a sign that is taken comes the next token. -/
lemma Stands.le_moved {look : Cursor → Token × Cursor × Cursor} (hs : s.Stands t)
    (hlook : Lexer.Moves look) (h : s.token.isSign x) :
    s.here.offset + Text.size x.toList ≤ (Reader.State.moved s look).here.offset := by
  rw [← (hs.reaches_sign h).offset_eq]
  exact (hlook.leads s.after).le

end State

/-! ### What readers have done -/

namespace Reader

lemma bind_eq_some {r : Reader α} {f : α → Reader β} {b : β}
    (h : (r >>= f) ctx s = some (b, s')) :
    ∃ a s₁, r ctx s = some (a, s₁) ∧ f a ctx s₁ = some (b, s') := by
  rw [bind_apply] at h
  obtain ⟨⟨a, s₁⟩, hr, hf⟩ := Option.bind_eq_some_iff.mp h
  exact ⟨a, s₁, hr, hf⟩

lemma need_eq_some {b : Bool} {u : Unit} (h : need b ctx s = some (u, s')) : b = true ∧ s' = s := by
  cases b with
  | false => cases h
  | true => cases h; exact ⟨rfl, rfl⟩

/-- A sign that is tried is taken if it is at hand. -/
lemma trySign_eq_some {b : Bool} (h : trySign x ctx s = some (b, s')) :
    (b = true ∧ s.token.isSign x ∧ s' = State.moved s Lexer.next) ∨ (b = false ∧ s' = s) := by
  rw [trySign, bind_onSign] at h
  split at h
  · next hsign => cases h; exact .inl ⟨rfl, hsign, rfl⟩
  · cases h; exact .inr ⟨rfl, rfl⟩

lemma sign_eq_some {u : Unit} (h : sign x ctx s = some (u, s')) :
    s.token.isSign x ∧ s' = State.moved s Lexer.next := by
  rw [sign] at h
  obtain ⟨b, s₁, htry, hneed⟩ := bind_eq_some h
  obtain ⟨rfl, rfl⟩ := need_eq_some hneed
  rcases trySign_eq_some htry with ⟨-, hsign, hmoved⟩ | ⟨hfalse, -⟩
  · exact ⟨hsign, hmoved⟩
  · cases hfalse

lemma gathered_eq_some {r : Reader α} {ts : List Tree}
    (h : gathered r ctx s = some ((a, ts), s')) :
    ∃ s₁, r ctx { s with trees := [] } = some (a, s₁) ∧ s' = { s₁ with trees := s.trees } := by
  rw [gathered] at h
  split at h
  · next b s₁ hread =>
      cases h
      exact ⟨s₁, hread, rfl⟩
  · cases h

end Reader

/-! ### Readers that record no markup -/

/-- Whatever a reader takes, the markup read before stays what it is. -/
class Reader.Quiet (r : Reader α) : Prop where
  trees_eq : ∀ {ctx : Context} {s s' : State} {a : α}, r ctx s = some (a, s') → s'.trees = s.trees

namespace Reader

instance (a : α) : Quiet (pure a : Reader α) := ⟨fun h => by cases h; rfl⟩

instance : Quiet (fail : Reader α) := ⟨fun h => by cases h⟩

instance : Quiet token := ⟨fun h => by cases h; rfl⟩

instance : Quiet state := ⟨fun h => by cases h; rfl⟩

instance : Quiet start := ⟨fun h => by cases h; rfl⟩

instance : Quiet lastStop := ⟨fun h => by cases h; rfl⟩

instance : Quiet following := ⟨fun h => by cases h; rfl⟩

instance (x : String) : Quiet (onSign x) := ⟨fun h => by cases h; rfl⟩

instance : Quiet complain := ⟨fun h => by cases h; rfl⟩

instance : Quiet advance := ⟨fun h => by cases h; rfl⟩

instance : Quiet advanceInMarkup := ⟨fun h => by cases h; rfl⟩

instance (r : Reader α) : Quiet (gathered r) :=
  ⟨fun h => by obtain ⟨s₁, -, rfl⟩ := gathered_eq_some h; rfl⟩

lemma quiet_bind {r : Reader α} {f : α → Reader β} [Quiet r] (hf : ∀ a, Quiet (f a)) :
    Quiet (r >>= f) where
  trees_eq h := by
    obtain ⟨a, s₁, hr, hrest⟩ := bind_eq_some h
    rw [(hf a).trees_eq hrest, Quiet.trees_eq hr]

instance (r : Reader α) (f : α → Reader β) [Quiet r] [∀ a, Quiet (f a)] : Quiet (r >>= f) :=
  quiet_bind inferInstance

instance {c : Prop} [Decidable c] (r r' : Reader α) [Quiet r] [Quiet r'] :
    Quiet (if c then r else r') := by
  split <;> infer_instance

instance (b : Bool) : Quiet (need b) := by
  unfold need
  infer_instance

instance (b : Bool) : Quiet (complainIf b) := by
  unfold complainIf
  infer_instance

instance (x : String) : Quiet (trySign x) := by
  unfold trySign
  infer_instance

instance (x : String) : Quiet (sign x) := by
  unfold sign
  infer_instance

end Reader

end Script

end CanvasSync
