import CanvasSync.Proofs.Markup.Index

/-!
Nodes reached by child numbers.

The index of a script lists under each node the numbers of those nested right in it, and a path of
child numbers goes from one to the next. In the trees, that is the way from a node to one nested in
it, wherever in the node that stands: in its content, in an expression, or in its opening tag.

* `Tree.along?`: the way down a tree, through those of the nested trees that count;
* `Tree.isPlain`: a tree in which all nodes stand in the content of others, `along?_contents` and
  `isPlain_of_isSome`;
* `entries_ofScript`: the entries of the index, with the numbers of the nodes nested in each;
* `Document.IsAt`: a tree that the index lists from a number on;
* `root?_rel`, `resolvePath?_rel`: the queries of the index find the trees that they stand for.
-/

namespace CanvasSync.Markup

/-! ### Ways down a tree -/

namespace Tree

/-- The node of a tree. -/
def top : Tree → Node
  | .node n _ => n

/-- The trees nested right in a tree, and where they stand. -/
def nested : Tree → List (Place × Tree)
  | .node _ ts => ts

/-- All trees nested right in a tree. -/
def inner (t : Tree) : List Tree := t.nested.map Prod.snd

/-- The trees that stand right in the content of a tree. -/
def contents (t : Tree) : List Tree := (t.nested.filter fun p => p.1 = .content).map Prod.snd

/-- The tree reached from another one by child numbers, counted among those that are taken for its
children. -/
def along? (children : Tree → List Tree) : Tree → List Nat → Option Tree
  | t, [] => some t
  | t, k :: path => (children t)[k]?.bind fun u => along? children u path

mutual
/-- Whether all nodes nested in a tree stand in the content of others. -/
def isPlain : Tree → Bool
  | .node _ ts => arePlain ts

/-- Whether trees in a row stand in content, and are plain. -/
def arePlain : List (Place × Tree) → Bool
  | [] => true
  | (place, t) :: ts => place = .content && isPlain t && arePlain ts
end

variable {t u : Tree} {ts : List (Place × Tree)} {around : Option Nat} {here : Nat}

lemma arePlain_iff : arePlain ts ↔ ∀ p ∈ ts, p.1 = .content ∧ p.2.isPlain := by
  induction ts with
  | nil => simp [arePlain]
  | cons p ts ih => simp [arePlain, ih, and_assoc]

lemma isPlain_iff : t.isPlain ↔ ∀ p ∈ t.nested, p.1 = .content ∧ p.2.isPlain := by
  cases t with
  | node n ts => exact arePlain_iff

lemma isPlain_of_getElem? {k : Nat} (h : t.isPlain) (hu : t.inner[k]? = some u) : u.isPlain := by
  obtain ⟨p, hp, rfl⟩ := List.mem_map.mp (List.mem_of_getElem? hu)
  exact (isPlain_iff.mp h p hp).2

lemma contents_eq_inner (h : ∀ p ∈ t.nested, p.1 = .content) : t.contents = t.inner := by
  rw [contents, inner, List.filter_eq_self.mpr (by simpa using h)]

/-- Without a node that stands elsewhere, the content of a tree is all that is nested in it. -/
lemma forall_content_of_length_le (h : t.inner.length ≤ t.contents.length) :
    ∀ p ∈ t.nested, p.1 = .content := by
  by_contra hother
  push Not at hother
  obtain ⟨p, hp, hne⟩ := hother
  have hlt : t.contents.length < t.inner.length := by
    rw [contents, inner, List.length_map, List.length_map]
    exact List.length_filter_lt_length_iff_exists.mpr ⟨p, hp, by simpa using hne⟩
  omega

/-- In a plain tree, all ways lead through the content. -/
lemma along?_contents (h : t.isPlain) (path : List Nat) :
    t.along? contents path = t.along? inner path := by
  induction path generalizing t with
  | nil => rfl
  | cons k path ih =>
      rw [along?, along?, contents_eq_inner fun p hp => (isPlain_iff.mp h p hp).1]
      exact Option.bind_congr fun u hu => ih (isPlain_of_getElem? h hu)

/-- **A tree is plain if as many ways lead through the content as there are at all.** A node that
stands elsewhere makes for one way more. -/
lemma isPlain_of_isSome (h : ∀ path, (t.along? inner path).isSome →
    (t.along? contents path).isSome) : t.isPlain := by
  have hall (ts : List (Place × Tree)) : ∀ p ∈ ts, (∀ path, (p.2.along? inner path).isSome →
      (p.2.along? contents path).isSome) → p.2.isPlain := by
    induction ts using treesInduction with
    | nil => exact List.forall_mem_nil _
    | cons place n children ts ihc ihts =>
        refine List.forall_mem_cons.mpr ⟨fun hpaths => ?_, ihts⟩
        set t := Tree.node n children
        have hcontent : ∀ p ∈ t.nested, p.1 = .content := by
          refine forall_content_of_length_le (Nat.le_of_not_lt fun hlt => ?_)
          have hmore := hpaths [t.contents.length]
          rw [along?, along?, List.getElem?_eq_getElem hlt,
            List.getElem?_eq_none (Nat.le_refl _)] at hmore
          exact absurd (hmore rfl) (by simp)
        refine isPlain_iff.mpr fun p hp => ⟨hcontent p hp, ihc p hp fun path hpath => ?_⟩
        obtain ⟨k, hk⟩ := List.mem_iff_getElem?.mp (List.mem_map_of_mem (f := Prod.snd) hp)
        have hlonger := hpaths (k :: path)
        rw [along?, along?, contents_eq_inner hcontent, show t.inner[k]? = some p.2 from hk] at hlonger
        exact hlonger hpath
  exact hall [(.content, t)] _ (List.mem_singleton_self _) h

/-! ### The entries of the index -/

/-- The numbers of trees in a row, `here` being that of the first one. -/
def starts (here : Nat) : List (Place × Tree) → List Nat
  | [] => []
  | (_, t) :: ts => here :: starts (here + t.count) ts

mutual
/-- The entries of the nodes of a tree, in the order in which they begin. -/
def entries (around : Option Nat) (here : Nat) : Tree → List Entry
  | .node n children =>
    ⟨n, around, starts (here + 1) children⟩ :: entriesOf (some here) (here + 1) children

/-- The entries of the nodes of trees in a row. -/
def entriesOf (around : Option Nat) (here : Nat) : List (Place × Tree) → List Entry
  | [] => []
  | (_, t) :: ts => entries around here t ++ entriesOf around (here + t.count) ts
end

lemma entriesOf_cons (around : Option Nat) (here : Nat) (place : Place) (n : Node)
    (children ts : List (Place × Tree)) :
    entriesOf around here ((place, .node n children) :: ts)
      = ⟨n, around, starts (here + 1) children⟩ :: (entriesOf (some here) (here + 1) children
          ++ entriesOf around (here + (countOf children + 1)) ts) := rfl

lemma starts_cons (here : Nat) (place : Place) (n : Node) (children ts : List (Place × Tree)) :
    starts here ((place, .node n children) :: ts)
      = here :: starts (here + (countOf children + 1)) ts := rfl

lemma length_entriesOf (around : Option Nat) (here : Nat) (ts : List (Place × Tree)) :
    (entriesOf around here ts).length = countOf ts := by
  induction ts using treesInduction generalizing around here with
  | nil => rfl
  | cons place n children ts ihc ihts =>
      rw [entriesOf_cons, List.length_cons, List.length_append, ihc, ihts, countOf_cons]
      omega

lemma length_entries (around : Option Nat) (here : Nat) (t : Tree) :
    (entries around here t).length = t.count := by
  cases t with
  | node n children => rw [entries, List.length_cons, length_entriesOf, count]

end Tree

namespace Collector

open Markup.Tree (countOf entriesOf starts)

/-- Entries with numbers listed as nested in one of them, if there is one. -/
def extend (around : Option Nat) (numbers : List Nat) (entries : List Entry) : List Entry :=
  match around with
  | some p => entries.modify p fun e => { e with children := e.children ++ numbers }
  | none => entries

variable {around : Option Nat} {c : Collector}

@[simp] lemma length_extend (around : Option Nat) (numbers : List Nat) (entries : List Entry) :
    (extend around numbers entries).length = entries.length := by
  cases around <;> simp [extend]

lemma extend_nil (around : Option Nat) (entries : List Entry) :
    extend around [] entries = entries := by
  cases around with
  | none => rfl
  | some p =>
      simp only [extend, List.append_nil]
      exact List.modify_id p entries

lemma extend_extend (around : Option Nat) (xs ys : List Nat) (entries : List Entry) :
    extend around ys (extend around xs entries) = extend around (xs ++ ys) entries := by
  cases around with
  | none => rfl
  | some p =>
      rw [extend, extend, extend, List.modify_modify_eq]
      simp [Function.comp_def]

/-- Numbers listed in an entry leave the entries behind it as they are. -/
lemma extend_append {front : List Entry} (h : ∀ p ∈ around, p < front.length) (xs : List Nat)
    (back : List Entry) : extend around xs (front ++ back) = extend around xs front ++ back := by
  cases around with
  | none => rfl
  | some p =>
      have hp : p < front.length := h p rfl
      rw [extend, extend, List.modify_eq_take_cons_drop (by simp; omega),
        List.modify_eq_take_cons_drop hp, List.take_append_of_le_length (Nat.le_of_lt hp),
        List.drop_append_of_le_length hp, List.getElem_append_left hp]
      simp

/-- Numbers listed in the last of some entries. -/
lemma extend_length (front : List Entry) (n : Node) (xs : List Nat) :
    extend (some front.length) xs (front ++ [⟨n, around, []⟩]) = front ++ [⟨n, around, xs⟩] := by
  rw [extend, List.modify_eq_take_cons_drop (by simp)]
  simp

lemma enter_eq (c : Collector) (n : Node) :
    c.enter n = ⟨extend c.stack.head? [c.entries.length] c.entries ++ [⟨n, c.stack.head?, []⟩],
      c.entries.length :: c.stack⟩ := by
  rw [enter]
  cases c.stack.head? <;> rfl

/-- **A walk over trees appends their entries**, lists their numbers in the innermost open node, and
leaves the open nodes as they were. -/
lemma walkChildren_entries (hopen : ∀ p ∈ c.stack.head?, p < c.entries.length)
    (ts : List (Place × Tree)) :
    walkChildren c ts = ⟨extend c.stack.head? (starts c.entries.length ts) c.entries
      ++ entriesOf c.stack.head? c.entries.length ts, c.stack⟩ := by
  induction ts using treesInduction generalizing c with
  | nil => simp [walkChildren, starts, entriesOf, extend_nil]
  | cons place n children ts ihc ihts =>
      set head := c.stack.head? with hhead
      set front := extend head [c.entries.length] c.entries with hfront
      have hlength : front.length = c.entries.length := length_extend _ _ _
      -- inside the node, it is the innermost open one
      have hin : (walkChildren (c.enter n) children).leave
          = ⟨front ++ ⟨n, head, starts (c.entries.length + 1) children⟩
            :: entriesOf (some c.entries.length) (c.entries.length + 1) children, c.stack⟩ := by
        rw [ihc (by simp [enter_eq]), enter_eq, ← hfront, ← hhead, leave]
        simp only [List.length_append, List.length_singleton, List.head?_cons, List.tail_cons]
        rw [hlength, ← hlength, extend_length, hlength, List.append_assoc, List.singleton_append]
      have hopen' : ∀ p ∈ head, p < front.length := by rwa [hlength]
      rw [walkChildren, walk, hin, ihts fun p hp => by
        have := hopen p hp
        simp only [List.length_append, hlength]
        omega]
      simp only [← hhead]
      have hcount : front.length + (countOf children + 1) = (front ++ ⟨n, head,
          starts (c.entries.length + 1) children⟩ :: entriesOf (some c.entries.length)
            (c.entries.length + 1) children).length := by
        rw [List.length_append, List.length_cons, Tree.length_entriesOf]
      rw [← hcount, hlength, extend_append hopen', hfront, extend_extend, Tree.entriesOf_cons,
        Tree.starts_cons]
      simp

end Collector

/-- The tree that everything is placed in: the first outermost one within the default export, or the
first outermost one if there is none. -/
def Script.root? (s : Script) : Option Tree :=
  (s.defaultExport.bind fun span => s.forest.find? fun t => t.top.span.within span).or s.forest.head?

namespace Document

open Markup.Tree (countOf entriesOf starts)

variable {d : Document} {s : Script} {i here : Nat} {t : Tree} {around : Option Nat}
  {ts : List (Place × Tree)}

/-- **The entries of the index of a script** are those of its trees. -/
theorem entries_ofScript (s : Script) :
    (ofScript s).entries = entriesOf none 0 (placed s.forest) := by
  rw [ofScript, walkForest_eq, Collector.walkChildren_entries (by simp [Collector.empty])]
  rfl

/-- Whether an index lists the entries of trees in a row from a number on. -/
def Lists (d : Document) (around : Option Nat) (here : Nat) (ts : List (Place × Tree)) : Prop :=
  ∃ before behind, d.entries = before ++ (entriesOf around here ts ++ behind)
    ∧ before.length = here

/-- Whether an index lists the entries of a tree from a number on. -/
def IsAt (d : Document) (i : Nat) (t : Tree) : Prop :=
  ∃ around before behind, d.entries = before ++ (Tree.entries around i t ++ behind)
    ∧ before.length = i

lemma lists_ofScript (s : Script) : (ofScript s).Lists none 0 (placed s.forest) :=
  ⟨[], [], by rw [entries_ofScript]; simp, rfl⟩

/-- Trees in a row are listed one after the other, each from its number on. -/
lemma Lists.forall₂ (h : d.Lists around here ts) :
    List.Forall₂ d.IsAt (starts here ts) (ts.map Prod.snd) := by
  induction ts generalizing here with
  | nil => exact .nil
  | cons p ts ih =>
      obtain ⟨place, t⟩ := p
      obtain ⟨before, behind, heq, rfl⟩ := h
      rw [entriesOf, List.append_assoc] at heq
      refine .cons ⟨around, before, _, heq, rfl⟩
        (ih ⟨before ++ Tree.entries around before.length t, behind, ?_, ?_⟩)
      · rw [heq, List.append_assoc]
      · rw [List.length_append, Tree.length_entries]

/-- A tree is listed by the entry of its node and by those of the trees nested in it. -/
lemma IsAt.exists_entry (h : d.IsAt i t) : ∃ e, d.entries[i]? = some e ∧ e.node = t.top
    ∧ List.Forall₂ d.IsAt e.children t.inner := by
  obtain ⟨around, before, behind, heq, rfl⟩ := h
  cases t with
  | node n children =>
      rw [Tree.entries, List.cons_append] at heq
      have hlists : d.Lists (some before.length) (before.length + 1) children :=
        ⟨before ++ [⟨n, around, starts (before.length + 1) children⟩], behind, by rw [heq]; simp,
          by simp⟩
      refine ⟨⟨n, around, starts (before.length + 1) children⟩, ?_, rfl, hlists.forall₂⟩
      rw [heq, List.getElem?_append_right (Nat.le_refl _), Nat.sub_self]
      rfl

lemma getElem?_rel {R : Nat → Tree → Prop} {is : List Nat} {us : List Tree}
    (h : List.Forall₂ R is us) (k : Nat) : Option.Rel R is[k]? us[k]? := by
  induction h generalizing k with
  | nil => exact .none
  | cons hR _ ih =>
      cases k with
      | zero => exact .some hR
      | succ k => exact ih k

lemma find?_rel {R : Nat → Tree → Prop} {is : List Nat} {us : List Tree} {p : Nat → Bool}
    {q : Tree → Bool} (h : List.Forall₂ R is us) (hpq : ∀ i u, R i u → p i = q u) :
    Option.Rel R (is.find? p) (us.find? q) := by
  induction h with
  | nil => exact .none
  | cons hR _ ih =>
      rw [List.find?_cons, List.find?_cons, hpq _ _ hR]
      split
      · exact .some hR
      · exact ih

/-- **Child numbers in the index are child numbers in the trees**, of all that is nested. -/
theorem resolvePath?_rel (h : d.IsAt i t) (path : List Nat) :
    Option.Rel d.IsAt (d.resolvePath? i path) (t.along? Tree.inner path) := by
  induction path generalizing i t with
  | nil => exact .some h
  | cons k path ih =>
      obtain ⟨e, he, -, hchildren⟩ := h.exists_entry
      have hk := getElem?_rel hchildren k
      rw [resolvePath?, Tree.along?, he]
      simp only
      generalize e.children[k]? = j, t.inner[k]? = u at hk ⊢
      cases hk with
      | none => exact .none
      | some hat => exact ih hat

/-- The outermost nodes are those of the trees. -/
lemma roots_ofScript (s : Script) : (ofScript s).roots = starts 0 (placed s.forest) := by
  have hall (around : Option Nat) (here : Nat) (ts : List (Place × Tree)) :
      (((entriesOf around here ts).zipIdx here).filter fun p => p.1.parent.isNone).map Prod.snd
        = if around.isNone then starts here ts else [] := by
    induction ts using treesInduction generalizing around here with
    | nil => cases around <;> rfl
    | cons place n children ts ihc ihts =>
        have hin := ihc (some here) (here + 1)
        have hbehind := ihts around (here + (countOf children + 1))
        have hnext : here + 1 + countOf children = here + (countOf children + 1) := by omega
        rw [Tree.entriesOf_cons, List.zipIdx_cons, List.zipIdx_append, Tree.length_entriesOf, hnext]
        cases around with
        | none =>
            rw [List.filter_cons_of_pos rfl, List.filter_append, List.map_cons, List.map_append, hin,
              hbehind]
            rfl
        | some a =>
            rw [List.filter_cons_of_neg (by simp), List.filter_append, List.map_append, hin, hbehind]
            rfl
  rw [roots, indicesWhere, entries_ofScript]
  exact hall none 0 _

/-- **The root of the index is the root of the trees.** -/
theorem root?_rel (s : Script) : Option.Rel (ofScript s).IsAt (ofScript s).root? s.root? := by
  have hroots : List.Forall₂ (ofScript s).IsAt (ofScript s).roots s.forest := by
    have h := (lists_ofScript s).forall₂
    have hplaced : (placed s.forest).map Prod.snd = s.forest := by
      simp [placed, Function.comp_def]
    rwa [← roots_ofScript, hplaced] at h
  have hwithin (span : Span) : Option.Rel (ofScript s).IsAt
      ((ofScript s).roots.find? fun i =>
        ((ofScript s).entries[i]?).any fun e => e.node.span.within span)
      (s.forest.find? fun t => t.top.span.within span) := find?_rel hroots fun i u hu => by
    obtain ⟨e, he, hnode, -⟩ := hu.exists_entry
    rw [he, Option.any_some, hnode]
  have hfirst := getElem?_rel hroots 0
  rw [← List.head?_eq_getElem?, ← List.head?_eq_getElem?] at hfirst
  have hexport : (ofScript s).defaultExport = s.defaultExport := rfl
  rw [root?, Script.root?, hexport]
  cases s.defaultExport with
  | none => exact hfirst
  | some span =>
      simp only [Option.bind_some]
      have hspan := hwithin span
      generalize List.find? _ (ofScript s).roots = i, List.find? _ s.forest = t at hspan ⊢
      cases hspan with
      | none => exact hfirst
      | some hat => exact .some hat

end Document

end CanvasSync.Markup
