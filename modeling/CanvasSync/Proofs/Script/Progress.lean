import CanvasSync.Proofs.Markup.Layout
import CanvasSync.Proofs.Script.Places
import CanvasSync.Proofs.Script.Reading

/-!
Readers go on in their text.

* `State.Stands`: the token at hand and the end of the token before stand in a text;
* `State.Goes`: a state is reached by reading on, and the markup read meanwhile is laid out between
  the two;
* `Reader.Steady`: whatever a reader takes, it goes on;
* the readers that all others are made of are steady.
-/

namespace CanvasSync.Script

open CanvasSync.Markup (AreLaid Tree)
open Cursor (Reaches Leads)

variable {t : Text} {s s' s'' : State} {ctx : Context} {α β : Type}

/-! ### States -/

namespace State

/-- Wherever a reader is, the token at hand and the end of the token before stand in the text. -/
structure Stands (t : Text) (s : State) : Prop where
  here : (⟨0, t⟩ : Cursor).Leads s.here
  token : s.token.Covers s.here s.after
  stop : ∃ c, (⟨0, t⟩ : Cursor).Leads c ∧ c.Leads s.here ∧ c.offset = s.lastStop

/-- The second state is reached by reading on from the first one; the markup read meanwhile is laid
out between the two. -/
structure Goes (t : Text) (s s' : State) : Prop where
  stands : s'.Stands t
  here : s.here.Leads s'.here
  stop : s.lastStop ≤ s'.lastStop
  trees : ∃ ts, s'.trees = ts.reverse ++ s.trees ∧ AreLaid t s.here.offset ts s'.here.offset

lemma Stands.here_leads_after (h : s.Stands t) : s.here.Leads s.after := by
  obtain ⟨w, hw, -⟩ := h.token.text
  exact hw.leads

lemma Stands.lastStop_le (h : s.Stands t) : s.lastStop ≤ s.here.offset := by
  obtain ⟨c, -, hc, heq⟩ := h.stop
  exact heq ▸ hc.le

/-- A state with the same token at hand and no other markup is reached without reading. -/
lemma Stands.goes_of_eq (h : s.Stands t) (htoken : s'.token = s.token) (hhere : s'.here = s.here)
    (hafter : s'.after = s.after) (hstop : s'.lastStop = s.lastStop) (htrees : s'.trees = s.trees) :
    s.Goes t s' := by
  refine ⟨⟨?_, ?_, ?_⟩, ?_, Nat.le_of_eq hstop.symm, [], htrees, .nil (by rw [hhere])⟩
  · rw [hhere]
    exact h.here
  · rw [htoken, hhere, hafter]
    exact h.token
  · rw [hhere, hstop]
    exact h.stop
  · rw [hhere]
    exact Leads.refl _

lemma Stands.goes (h : s.Stands t) : s.Goes t s := h.goes_of_eq rfl rfl rfl rfl rfl

lemma Goes.trans (h : s.Goes t s') (h' : s'.Goes t s'') : s.Goes t s'' := by
  obtain ⟨ts, htrees, hlaid⟩ := h.trees
  obtain ⟨us, htrees', hlaid'⟩ := h'.trees
  refine ⟨h'.stands, h.here.trans h'.here, Nat.le_trans h.stop h'.stop, ts ++ us, ?_,
    hlaid.append hlaid'⟩
  rw [htrees', htrees, List.reverse_append, List.append_assoc]

/-- Behind the token at hand comes the next one. -/
lemma Stands.goes_moved {look : Cursor → Token × Cursor × Cursor} (h : s.Stands t)
    (hlook : Lexer.Moves look) : s.Goes t (Reader.State.moved s look) := by
  have hafter : (⟨0, t⟩ : Cursor).Leads s.after := h.here.trans h.here_leads_after
  have hnext := hlook.leads s.after
  have hstop : s.token.span.stop = s.after.offset := by rw [h.token.span_eq]
  refine ⟨⟨hafter.trans hnext, hlook.covers s.after, s.after, hafter, hnext, hstop.symm⟩,
    h.here_leads_after.trans hnext, ?_, [], rfl, .nil (h.here_leads_after.trans hnext).le⟩
  calc s.lastStop ≤ s.here.offset := h.lastStop_le
    _ ≤ s.after.offset := h.here_leads_after.le
    _ = s.token.span.stop := hstop.symm

/-- Another token that covers what stands here may be at hand. -/
lemma Stands.goes_retold {token : Token} {after : Cursor} (h : s.Stands t)
    (htoken : token.Covers s.here after) : s.Goes t { s with token := token, after := after } :=
  ⟨⟨h.here, htoken, h.stop⟩, Leads.refl _, Nat.le_refl _, [], rfl, .nil (Nat.le_refl _)⟩

end State

/-! ### Readers -/

/-- Whatever a reader takes, it goes on in the text. -/
class Reader.Steady (r : Reader α) : Prop where
  goes : ∀ {t : Text} {ctx : Context} {s s' : State} {a : α},
    s.Stands t → r ctx s = some (a, s') → s.Goes t s'

namespace Reader

/-- A reader that changes nothing that stands in the text is steady. -/
lemma steady_of_eq {r : Reader α} (h : ∀ ctx s a s', r ctx s = some (a, s') →
    s'.token = s.token ∧ s'.here = s.here ∧ s'.after = s.after ∧ s'.lastStop = s.lastStop
      ∧ s'.trees = s.trees) : Steady r where
  goes hs hr := by
    obtain ⟨htoken, hhere, hafter, hstop, htrees⟩ := h _ _ _ _ hr
    exact hs.goes_of_eq htoken hhere hafter hstop htrees

/-- A reader that only looks is steady. -/
lemma steady_of_looks {r : Reader α} (h : ∀ ctx s a s', r ctx s = some (a, s') → s' = s) :
    Steady r :=
  steady_of_eq fun ctx s a s' hr => by
    obtain rfl := h ctx s a s' hr
    exact ⟨rfl, rfl, rfl, rfl, rfl⟩

instance (a : α) : Steady (pure a : Reader α) :=
  steady_of_looks fun _ _ _ _ hr => by cases hr; rfl

instance : Steady (fail : Reader α) := ⟨fun _ hr => by cases hr⟩

instance : Steady token := steady_of_looks fun _ _ _ _ hr => by cases hr; rfl

instance : Steady state := steady_of_looks fun _ _ _ _ hr => by cases hr; rfl

instance : Steady context := steady_of_looks fun _ _ _ _ hr => by cases hr; rfl

instance : Steady start := steady_of_looks fun _ _ _ _ hr => by cases hr; rfl

instance : Steady lastStop := steady_of_looks fun _ _ _ _ hr => by cases hr; rfl

instance : Steady following := steady_of_looks fun _ _ _ _ hr => by cases hr; rfl

instance : Steady followingTwo := steady_of_looks fun _ _ _ _ hr => by cases hr; rfl

instance (x : String) : Steady (onSign x) := steady_of_looks fun _ _ _ _ hr => by cases hr; rfl

instance (x : String) : Steady (onWord x) := steady_of_looks fun _ _ _ _ hr => by cases hr; rfl

instance : Steady mayEnd := steady_of_looks fun _ _ _ _ hr => by cases hr; rfl

instance (r : Reader Bool) : Steady (looking r) :=
  steady_of_looks fun ctx s b s' hr => by
    rw [looking] at hr
    split at hr <;> cases hr <;> rfl

instance : Steady complain :=
  steady_of_eq fun _ _ _ _ hr => by cases hr; exact ⟨rfl, rfl, rfl, rfl, rfl⟩

instance (offset : Nat) : Steady (noteDefault offset) :=
  steady_of_eq fun _ _ _ _ hr => by cases hr; exact ⟨rfl, rfl, rfl, rfl, rfl⟩

instance (offsets : List Nat) : Steady (settle offsets) :=
  steady_of_eq fun _ _ _ _ hr => by cases hr; exact ⟨rfl, rfl, rfl, rfl, rfl⟩

instance : Steady advance := ⟨fun hs hr => by cases hr; exact hs.goes_moved Lexer.moves_next⟩

instance : Steady advanceInMarkup :=
  ⟨fun hs hr => by cases hr; exact hs.goes_moved Lexer.moves_nextMarkup⟩

instance : Steady advanceToValue :=
  ⟨fun hs hr => by cases hr; exact hs.goes_moved Lexer.moves_nextValue⟩

/-- A token read anew still stands in the text. -/
lemma steady_reread {read : Cursor → Option (Kind × Cursor)} (h : Lexer.IsFaithful read) :
    Steady (reread read) where
  goes hs hr := by
    cases hr
    exact hs.goes_retold (Lexer.covers_tokenAt (h _) _)

instance : Steady (reread Lexer.joined) := steady_reread Lexer.isFaithful_joined

/-! Readers made of others. -/

lemma steady_bind {r : Reader α} {f : α → Reader β} [Steady r] (hf : ∀ a, Steady (f a)) :
    Steady (r >>= f) where
  goes hs hr := by
    rw [bind_apply] at hr
    obtain ⟨⟨a, s'⟩, hfirst, hrest⟩ := Option.bind_eq_some_iff.mp hr
    have hgoes := Steady.goes hs hfirst
    exact hgoes.trans ((hf a).goes hgoes.stands hrest)

instance (r : Reader α) (f : α → Reader β) [Steady r] [∀ a, Steady (f a)] : Steady (r >>= f) :=
  steady_bind inferInstance

instance {c : Prop} [Decidable c] (r r' : Reader α) [Steady r] [Steady r'] :
    Steady (if c then r else r') := by
  split <;> infer_instance

instance (f : Context → Context) (r : Reader α) [Steady r] : Steady (within f r) :=
  ⟨fun hs hr => Steady.goes (r := r) hs hr⟩

instance (r : Reader α) [Steady r] : Steady (attempt? r) where
  goes hs hr := by
    rw [attempt?] at hr
    split at hr
    · next hread =>
        cases hr
        exact Steady.goes hs hread
    · cases hr
      exact hs.goes

instance (b : Bool) : Steady (complainIf b) := by
  unfold complainIf
  infer_instance

instance (b : Bool) : Steady (need b) := by
  unfold need
  infer_instance

instance (x : String) : Steady (trySign x) := by
  unfold trySign
  infer_instance

instance (x : String) : Steady (tryWord x) := by
  unfold tryWord
  infer_instance

instance (x : String) : Steady (sign x) := by
  unfold sign
  infer_instance

instance (x : String) : Steady (word x) := by
  unfold word
  infer_instance

instance (p : Token → Bool) : Steady (tokenWith p) := by
  unfold tokenWith
  infer_instance

instance : Steady statementEnd := by
  unfold statementEnd
  infer_instance

instance (n : Nat) (r : Reader Bool) [Steady r] : Steady (times n r) := by
  induction n with
  | zero => exact inferInstanceAs (Steady fail)
  | succ n ih =>
      unfold times
      infer_instance

lemma steady_whileTrue {r : Reader Bool} (_ : Steady r) : Steady (whileTrue r) :=
  ⟨fun hs hr => Steady.goes (r := times _ r) hs hr⟩

instance (r : Reader Bool) [Steady r] : Steady (whileTrue r) := steady_whileTrue inferInstance

instance (close separator : String) (item : α → Reader α) [∀ a, Steady (item a)] (n : Nat) (a : α) :
    Steady (foldRest close separator item n a) := by
  induction n generalizing a with
  | zero => exact inferInstanceAs (Steady fail)
  | succ n ih =>
      unfold foldRest
      infer_instance

instance (close separator : String) (item : α → Reader α) [∀ a, Steady (item a)] (a : α) :
    Steady (foldSeparated close separator item a) := by
  unfold foldSeparated
  infer_instance

instance (close separator : String) (item : Reader Unit) [Steady item] :
    Steady (separated close separator item) := by
  unfold separated
  infer_instance

/-- Markup gathered by itself is laid out between where it begins and where it ends. -/
lemma laid_of_gathered {r : Reader α} [Steady r] {a : α} {ts : List Tree} (hs : s.Stands t)
    (hr : gathered r ctx s = some ((a, ts), s')) :
    s.Goes t s' ∧ AreLaid t s.here.offset ts s'.here.offset := by
  rw [gathered] at hr
  split at hr
  · next b s'' hread =>
      cases hr
      have hgoes := Steady.goes (s := { s with trees := [] }) ⟨hs.here, hs.token, hs.stop⟩ hread
      obtain ⟨ts, htrees, hlaid⟩ := hgoes.trees
      rw [List.append_nil] at htrees
      have hstands := hgoes.stands
      refine ⟨⟨⟨hstands.here, hstands.token, hstands.stop⟩, hgoes.here, hgoes.stop, [], rfl,
        .nil hgoes.here.le⟩, ?_⟩
      rw [htrees, List.reverse_reverse]
      exact hlaid
  · cases hr

instance (r : Reader α) [Steady r] : Steady (gathered r) :=
  ⟨fun hs hr => (laid_of_gathered (r := r) hs hr).1⟩

end Reader

end CanvasSync.Script
