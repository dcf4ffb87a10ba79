import CanvasSync.Proofs.Markup.Extraction
import CanvasSync.Proofs.Text.Solid

/-!
How markup is laid out in a text.

* `Span.Covers`: a span covers a text that stands in another one;
* `Node.IsLaid`: a node and its tags run from a less-than sign to a greater-than sign, and its
  attributes stand in order between its tag and the end of its opening tag;
* `AreLaid`: trees stand in order between two offsets, the trees nested in a node within its span;
* `Document.IsLaid`: so do the nodes of an index, of which two are nested or apart;
* `isLaid_ofScript`: the index of trees that are laid out is laid out.
-/

namespace CanvasSync

/-- A span covers a text that stands in another one. -/
def Span.Covers (s : Span) (t w : Text) : Prop :=
  ∃ a b, t = a ++ w ++ b ∧ s = ⟨Text.size a, Text.size a + Text.size w⟩

namespace Markup

/-- Whether a text runs from a less-than sign to a greater-than sign. -/
def IsTagged (w : Text) : Prop := ∃ v, w = '<' :: (v ++ ['>'])

lemma IsTagged.beginsSolid {w : Text} (h : IsTagged w) : Text.beginsSolid w := by
  obtain ⟨v, rfl⟩ := h
  rfl

lemma IsTagged.endsSolid {w : Text} (h : IsTagged w) : Text.endsSolid w := by
  obtain ⟨v, rfl⟩ := h
  exact Text.endsSolid_append ('<' :: v) (by decide)

/-- Attributes stand in order between two offsets, and none of them ends with a blank. -/
def AttributesLaid (t : Text) : (start : Nat) → List Attribute → (stop : Nat) → Prop
  | start, [], stop => start ≤ stop
  | start, a :: as, stop =>
    start ≤ a.span.start ∧ (∃ w, a.span.Covers t w ∧ Text.endsSolid w)
      ∧ AttributesLaid t a.span.stop as stop

/-- A node with its tags and its attributes as they stand in a text. -/
structure Node.IsLaid (t : Text) (n : Node) : Prop where
  span : ∃ w, n.span.Covers t w ∧ IsTagged w
  opening : ∃ w, n.opening.Covers t w ∧ IsTagged w
  start_eq : n.opening.start = n.span.start
  closing : ∀ c, n.closing = some c →
    n.opening.stop ≤ c.start ∧ ∃ w, c.Covers t w ∧ IsTagged w
  tag : n.tag.toList = [] ∨ Text.endsSolid n.tag.toList
  attributes : ∃ stop,
    AttributesLaid t (n.opening.start + 1 + Text.size n.tag.toList) n.attributes stop
      ∧ stop + (if n.selfClosing then 2 else 1) ≤ n.opening.stop

/-- Trees stand in order between two offsets, those nested in a node within its span. -/
inductive AreLaid (t : Text) : (start : Nat) → List Tree → (stop : Nat) → Prop where
  | nil {start stop : Nat} : start ≤ stop → AreLaid t start [] stop
  | cons {start stop : Nat} {n : Node} {children : List (Place × Tree)} {ts : List Tree} :
      start ≤ n.span.start → n.IsLaid t →
      AreLaid t n.span.start (children.map Prod.snd) n.span.stop →
      AreLaid t n.span.stop ts stop → AreLaid t start (.node n children :: ts) stop

variable {t : Text} {start start' mid stop stop' : Nat} {ts us : List Tree}

lemma AttributesLaid.mono {as : List Attribute} (h : AttributesLaid t start as stop)
    (hstart : start' ≤ start) : AttributesLaid t start' as stop := by
  cases as with
  | nil => exact Nat.le_trans hstart h
  | cons a as => exact ⟨Nat.le_trans hstart h.1, h.2⟩

namespace AreLaid

lemma le (h : AreLaid t start ts stop) : start ≤ stop := by
  induction h with
  | nil h => exact h
  | cons h _ _ _ ihc ihts => omega

lemma append (h : AreLaid t start ts mid) (h' : AreLaid t mid us stop) :
    AreLaid t start (ts ++ us) stop := by
  induction h with
  | nil hle =>
      cases h' with
      | nil hle' => exact .nil (Nat.le_trans hle hle')
      | cons hstart hn hc hts => exact .cons (Nat.le_trans hle hstart) hn hc hts
  | cons hstart hn hc _ _ ih => exact .cons hstart hn hc (ih h')

/-- Trees between two offsets stand between wider ones too. -/
lemma mono (h : AreLaid t start ts stop) (hstart : start' ≤ start) (hstop : stop ≤ stop') :
    AreLaid t start' ts stop' := by
  simpa using (append (.nil hstart) h).append (.nil hstop)

end AreLaid

/-! ### The nodes of an index -/

/-- The nodes of an index are laid out in a text: of two nodes, the second begins within the first
one and ends within it, or stands behind it. -/
structure Document.IsLaid (t : Text) (d : Document) : Prop where
  nodes : ∀ e ∈ d.entries, e.node.IsLaid t
  apart : d.entries.Pairwise fun e e' =>
    e'.node.span.within e.node.span ∨ e.node.span.stop ≤ e'.node.span.start

/-- The nodes of trees stand between the offsets between which the trees stand. -/
lemma AreLaid.nodes {children : List (Place × Tree)}
    (h : AreLaid t start (children.map Prod.snd) stop) (around : Option Nat) (here : Nat) :
    ∀ r ∈ Tree.rowsOf around here children,
      r.1.IsLaid t ∧ start ≤ r.1.span.start ∧ r.1.span.stop ≤ stop := by
  induction children using treesInduction generalizing start stop around here with
  | nil => simp [Tree.rowsOf]
  | cons place n children ts ihc ihts =>
      cases h with
      | cons hstart hn hc hts =>
          have hc' := hc.le
          have hts' := hts.le
          rw [Tree.rowsOf_cons]
          intro r hr
          rcases List.mem_cons.mp hr with rfl | hr
          · exact ⟨hn, hstart, hts'⟩
          · rcases List.mem_append.mp hr with hr | hr
            · obtain ⟨hlaid, hlow, hhigh⟩ := ihc hc _ _ r hr
              exact ⟨hlaid, by omega, by omega⟩
            · obtain ⟨hlaid, hlow, hhigh⟩ := ihts hts _ _ r hr
              exact ⟨hlaid, by omega, by omega⟩

/-- Of two nodes of trees, the second stands within the first one or behind it. -/
lemma AreLaid.apart {children : List (Place × Tree)}
    (h : AreLaid t start (children.map Prod.snd) stop) (around : Option Nat) (here : Nat) :
    (Tree.rowsOf around here children).Pairwise fun r r' =>
      r'.1.span.within r.1.span ∨ r.1.span.stop ≤ r'.1.span.start := by
  induction children using treesInduction generalizing start stop around here with
  | nil => exact .nil
  | cons place n children ts ihc ihts =>
      cases h with
      | cons hstart hn hc hts =>
          rw [Tree.rowsOf_cons, List.pairwise_cons, List.pairwise_append]
          refine ⟨fun r hr => ?_, ihc hc _ _, ihts hts _ _, fun r hr r' hr' => ?_⟩
          · rcases List.mem_append.mp hr with hr | hr
            · obtain ⟨-, hlow, hhigh⟩ := hc.nodes _ _ r hr
              exact .inl (by simp [Span.within, hlow, hhigh])
            · exact .inr (hts.nodes _ _ r hr).2.1
          · have hr := (hc.nodes _ _ r hr).2.2
            have hr' := (hts.nodes _ _ r' hr').2.1
            exact .inr (Nat.le_trans hr hr')

namespace Document

/-- **The index of trees that are laid out is laid out.** -/
theorem isLaid_ofScript {s : Script} (h : AreLaid t start s.forest stop) :
    (ofScript s).IsLaid t := by
  have hplaced : AreLaid t start ((placed s.forest).map Prod.snd) stop := by
    simpa [placed, Function.comp_def] using h
  have hrows := rows_ofScript s
  refine ⟨fun e he => ?_, ?_⟩
  · have hrow : Collector.row e ∈ Tree.rowsOf none 0 (placed s.forest) := by
      rw [← hrows]
      exact List.mem_map_of_mem he
    exact (hplaced.nodes none 0 _ hrow).1
  · have hapart := hplaced.apart none 0
    rw [← hrows, List.pairwise_map] at hapart
    exact hapart

end Document

end Markup

end CanvasSync
