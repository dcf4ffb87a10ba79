import CanvasSync.Proofs.Line.Tags

/-!
Updates of a line with a written tag.

* `foldl_setProp_opening`: props set one after the other are set at once;
* `withClasses`: a tag with a string between the quotes of its class attribute, whatever is in it;
* `setClassName_opening`: classes stand between these quotes;
* `exists_setTextContent_opening`: a text takes the place of what stands between two tags;
* `exists_apply_opening`: what an update makes of the line of a tag.
-/

namespace CanvasSync.Line

open CanvasSync.Json (Fields Value)
open CanvasSync.Markup (Part Shell addedParts partsText setParts)
open CanvasSync.Script (isAttributeName)
open CanvasSync.Script.Grammar (valueText valueText_cases writtenValue)
open Tag (isSilent splitStart?)

variable {names : List String} {s : Shell} {p : Part} {ps : List Part} {pre post : Text} {v : Value}
  {key : String} {c : Char}

/-! ### Props set one after the other -/

variable {props : Fields}

/-- Values of several names may be set one after the other. -/
lemma setParts_cons (hkey : key ∉ props.map Prod.fst) (v : Value) (ps : List Part) :
    setParts ((key, v) :: props) ps = setParts props (setParts [(key, v)] ps) := by
  have hne : ∀ c ∈ props, c.1 ≠ key := fun c hc h => hkey (List.mem_map.mpr ⟨c, hc, h⟩)
  induction ps generalizing props with
  | nil => rfl
  | cons p ps ih =>
      by_cases hname : key = p.name
      · subst hname
        have herase : Fields.erase p.name ((p.name, v) :: props) = props := by
          rw [Fields.erase, List.filter_cons_of_neg (by simp)]
          exact List.filter_eq_self.mpr fun c hc => by simpa using hne c hc
        have hget : Fields.get? p.name props = none := Fields.get?_eq_none_iff.mpr hne
        rw [setParts_singleton_cons_self, setParts, Fields.get?, if_pos rfl]
        simp only
        rw [herase]
        cases hp : p.set? v with
        | none => rfl
        | some q =>
            rw [Option.toList_some, List.singleton_append, List.singleton_append, setParts,
              Markup.name_of_set? hp, hget]
      · have herase : Fields.erase p.name ((key, v) :: props)
            = (key, v) :: Fields.erase p.name props := by
          rw [Fields.erase, List.filter_cons_of_pos (by simpa using hname)]
          rfl
        rw [setParts_singleton_cons_of_ne hname, setParts, setParts, Fields.get?, if_neg hname]
        cases Fields.get? p.name props with
        | none => simp only [ih hkey hne]
        | some w =>
            have hkey' : key ∉ (Fields.erase p.name props).map Prod.fst := fun h =>
              hkey ((List.filter_sublist.map _).subset h)
            have hrest := ih hkey' fun c hc => hne c (List.mem_of_mem_filter hc)
            simp only [herase, hrest]

/-- An attribute without a value under its name stays at the end. -/
lemma setParts_append_singleton (h : Fields.get? p.name props = none) (ps : List Part) :
    setParts props (ps ++ [p]) = setParts props ps ++ [p] := by
  induction ps generalizing props with
  | nil =>
      simp only [List.nil_append, setParts, h]
  | cons q ps ih =>
      rw [List.cons_append, setParts, setParts]
      cases Fields.get? q.name props with
      | none => simp only [ih h, List.cons_append]
      | some v =>
          have herase : Fields.get? p.name (Fields.erase q.name props) = none := by
            rw [Fields.get?_erase, h, ite_self]
          simp only [ih herase, List.append_assoc]

lemma mem_addedParts {q : Part} (h : q ∈ addedParts [(key, v)] ps) : q = .ofProp (key, v) := by
  obtain ⟨c, hc, rfl⟩ := List.mem_map.mp h
  rw [List.mem_singleton.mp (List.mem_of_mem_filter hc)]

/-- Whether there is an attribute of a name does not depend on the values set under other names. -/
lemma mem_names_setParts {n : String} (hne : n ≠ key) (v : Value) (ps : List Part) :
    n ∈ (setParts [(key, v)] ps ++ addedParts [(key, v)] ps).map Part.name
      ↔ n ∈ ps.map Part.name := by
  have hadded : n ∉ (addedParts [(key, v)] ps).map Part.name := fun hmem => by
    obtain ⟨q, hq, rfl⟩ := List.mem_map.mp hmem
    rw [mem_addedParts hq] at hne
    exact hne rfl
  rw [List.map_append, List.mem_append, or_iff_left hadded]
  clear hadded
  induction ps with
  | nil => rfl
  | cons p ps ih =>
      by_cases hname : key = p.name
      · subst hname
        have hmem : n ∉ (p.set? v).toList.map Part.name := by
          cases hp : p.set? v with
          | none => simp
          | some q => simpa [Markup.name_of_set? hp] using hne
        rw [setParts_singleton_cons_self, List.map_append, List.mem_append, or_iff_right hmem,
          List.map_cons, List.mem_cons, or_iff_right hne]
      · simp only [setParts_singleton_cons_of_ne hname, List.map_cons, List.mem_cons, ih]

lemma set_cons (hkey : key ∉ props.map Prod.fst) (v : Value) (s : Shell) :
    s.set ((key, v) :: props) = (s.set [(key, v)]).set props := by
  have hparts (ps : List Part) :
      setParts ((key, v) :: props) ps ++ addedParts ((key, v) :: props) ps
      = setParts props (setParts [(key, v)] ps ++ addedParts [(key, v)] ps)
        ++ addedParts props (setParts [(key, v)] ps ++ addedParts [(key, v)] ps) := by
    have hne : ∀ c ∈ props, c.1 ≠ key := fun c hc h => hkey (List.mem_map.mpr ⟨c, hc, h⟩)
    have hadded : addedParts ((key, v) :: props) ps = addedParts [(key, v)] ps
        ++ addedParts props (setParts [(key, v)] ps ++ addedParts [(key, v)] ps) := by
      have hfilter : (props.filter fun c => !(c.1 ∈ ps.map Part.name || c.2.isNull))
          = props.filter fun c => !(c.1 ∈ (setParts [(key, v)] ps
            ++ addedParts [(key, v)] ps).map Part.name || c.2.isNull) :=
        List.filter_congr fun c hc => by
          rw [decide_eq_decide.mpr (mem_names_setParts (hne c hc) v ps)]
      rw [addedParts, ← List.singleton_append, List.filter_append, List.map_append, hfilter]
      rfl
    have hbehind : setParts props (setParts [(key, v)] ps ++ addedParts [(key, v)] ps)
        = setParts props (setParts [(key, v)] ps) ++ addedParts [(key, v)] ps := by
      rcases hnew : addedParts [(key, v)] ps with _ | ⟨q, _ | ⟨r, qs⟩⟩
      · simp
      · have hq := mem_addedParts (by rw [hnew]; exact List.mem_singleton_self q)
        exact setParts_append_singleton (Fields.get?_eq_none_iff.mpr (by rw [hq]; exact hne)) _
      · have hlength : (addedParts [(key, v)] ps).length ≤ 1 := by
          rw [addedParts, List.length_map]
          exact List.length_filter_le _ _
        rw [hnew] at hlength
        simp at hlength
    rw [hadded, setParts_cons hkey, hbehind, List.append_assoc]
  cases s with
  | fragment => rfl
  | element t => simp only [Shell.set, Markup.Tag.set, hparts]
  | closed t => simp only [Shell.set, Markup.Tag.set, hparts]

/-- What holds of all attributes holds of them once a value is set, if it does not depend on values
but for that one. -/
lemma forall_mem_set {P : Part → Prop} (hps : ∀ p ∈ ps, P p)
    (hset : ∀ p, p.gap ≠ [] → Text.allBlank p.gap → p.name = key → p.behind = valueText v → P p)
    (hgaps : ∀ p ∈ ps, p.gap ≠ [] ∧ Text.allBlank p.gap) :
    ∀ p ∈ setParts [(key, v)] ps ++ addedParts [(key, v)] ps, P p := by
  refine List.forall_mem_append.mpr ⟨?_, fun p hp => ?_⟩
  · induction ps with
    | nil => exact List.forall_mem_nil _
    | cons p ps ih =>
        rw [List.forall_mem_cons] at hps hgaps
        by_cases hname : key = p.name
        · subst hname
          rw [setParts_singleton_cons_self, List.forall_mem_append]
          refine ⟨fun q hq => ?_, hps.2⟩
          unfold Part.set? at hq
          split at hq
          · cases hq
          · obtain rfl := List.mem_singleton.mp hq
            exact hset _ hgaps.1.1 hgaps.1.2 rfl rfl
        · rw [setParts_singleton_cons_of_ne hname, List.forall_mem_cons]
          exact ⟨hps.1, ih hps.2 hgaps.2⟩
  · rw [mem_addedParts hp]
    exact hset _ (List.cons_ne_nil _ _) Markup.allBlank_space rfl rfl

/-- A tag with a value set is read as it is written if the value is. -/
lemma isScannedTag_set (hs : IsScannedTag names s) (hkey : isAttributeName key.toList)
    (hv : Scans names (valueText v)) : IsScannedTag names (s.set [(key, v)]) := by
  have hset (ps : List Part) (hps : ∀ p ∈ ps, IsScanned names p) :
      ∀ p ∈ setParts [(key, v)] ps ++ addedParts [(key, v)] ps, IsScanned names p :=
    forall_mem_set hps (fun p hne hgap hname hbehind =>
      ⟨hne, hgap, by rwa [hname], by rwa [hbehind]⟩) fun p hp => ⟨(hps p hp).gap_ne, (hps p hp).gap⟩
  cases s with
  | fragment => exact hs
  | element t => exact ⟨rfl, hs.name, hs.letter, hset t.parts hs.parts, hs.gap⟩
  | closed t => exact ⟨rfl, hs.name, hs.letter, hset t.parts hs.parts, hs.gap⟩

/-- The end of a tag with a value set is found if the value leaves nothing open. -/
lemma isDelimitedTag_set (hs : IsDelimitedTag s) (hkey : isAttributeName key.toList)
    (hlevel : Tag.IsLevel (valueText v)) : IsDelimitedTag (s.set [(key, v)]) := by
  have hends : valueText v = []
      ∨ ∃ w c, valueText v = '=' :: (w ++ [c]) ∧ (c = '"' ∨ c = '\'' ∨ c = '\x7d') := by
    rcases valueText_cases v with ⟨h, -⟩ | ⟨h, -⟩ | ⟨t, -, h, -⟩
    · exact .inl h
    · exact .inr ⟨'\x7b' :: v.text, _, h, by simp⟩
    · exact .inr ⟨'"' :: t.toList, _, h, by simp⟩
  have hset (ps : List Part) (hps : ∀ p ∈ ps, IsDelimited p) :
      ∀ p ∈ setParts [(key, v)] ps ++ addedParts [(key, v)] ps, IsDelimited p :=
    forall_mem_set hps (fun p hne hgap hname hbehind =>
      ⟨hne, hgap, by rwa [hname], by rwa [hbehind], by rwa [hbehind]⟩)
      fun p hp => ⟨(hps p hp).gap_ne, (hps p hp).gap⟩
  cases s with
  | fragment => exact hs
  | element t => exact ⟨rfl, hs.name, hs.letter, hset t.parts hs.parts, hs.gap⟩
  | closed t => exact ⟨rfl, hs.name, hs.letter, hset t.parts hs.parts, hs.gap⟩

/-- An attribute with a value set, if the value does not take it away. -/
lemma set?_eq_some (hv : v.isNull = false) (p : Part) :
    p.set? v = some ⟨p.gap, p.name, valueText v, writtenValue v⟩ := by
  rw [Part.set?, hv, if_neg Bool.false_ne_true]

/-- The search comes to an attribute that has been set, if its value ends where it is written. -/
lemma finds_set (hfinds : Finds key ps) (hv : v.isNull = false) (hends : EndsThere (valueText v)) :
    Finds key (setParts [(key, v)] ps ++ addedParts [(key, v)] ps) := by
  rcases notMem_or_exists_first key ps with hnot | ⟨as, p, bs, rfl, rfl, hnot⟩
  · rw [finds_of_notMem hnot] at hfinds
    rw [setParts_addedParts_of_notMem hnot, hv, if_neg Bool.false_ne_true]
    exact (finds_append_cons (p := .ofProp (key, v)) hnot).mpr ⟨hfinds, hends⟩
  · rw [finds_append_cons hnot] at hfinds
    rw [setParts_addedParts_of_mem hnot, set?_eq_some hv]
    exact (finds_append_cons (p := ⟨p.gap, p.name, valueText v, writtenValue v⟩) hnot).mpr
      ⟨hfinds.1, hends⟩

/-- Of two values set one after the other under a name, the last one counts. -/
lemma set_set (hv : v.isNull = false) (w : Value) (s : Shell) :
    (s.set [(key, v)]).set [(key, w)] = s.set [(key, w)] := by
  have hparts (ps : List Part) :
      setParts [(key, w)] (setParts [(key, v)] ps ++ addedParts [(key, v)] ps)
        ++ addedParts [(key, w)] (setParts [(key, v)] ps ++ addedParts [(key, v)] ps)
      = setParts [(key, w)] ps ++ addedParts [(key, w)] ps := by
    rcases notMem_or_exists_first key ps with hnot | ⟨as, p, bs, rfl, rfl, hnot⟩
    · rw [setParts_addedParts_of_notMem hnot, setParts_addedParts_of_notMem hnot,
        hv, if_neg Bool.false_ne_true]
      refine (setParts_addedParts_of_mem (p := .ofProp (key, v)) hnot w).trans ?_
      cases hnull : w.isNull <;> simp [Part.set?, Part.ofProp, hnull]
    · rw [setParts_addedParts_of_mem hnot, setParts_addedParts_of_mem hnot, set?_eq_some hv]
      exact setParts_addedParts_of_mem (p := ⟨p.gap, p.name, valueText v, writtenValue v⟩) hnot w
  cases s with
  | fragment => rfl
  | element t => simp only [Shell.set, Markup.Tag.set, hparts]
  | closed t => simp only [Shell.set, Markup.Tag.set, hparts]

lemma set_nil (s : Shell) : s.set [] = s := by
  have hparts (ps : List Part) : setParts [] ps ++ addedParts [] ps = ps := by
    rw [setParts_nil]
    exact List.append_nil ps
  cases s with
  | fragment => rfl
  | element t => simp only [Shell.set, Markup.Tag.set, hparts]
  | closed t => simp only [Shell.set, Markup.Tag.set, hparts]

/-- **Props set one after the other are the attributes of the first tag of the line**, each where it
stands or behind those before it. -/
theorem foldl_setProp_opening (hs : IsScannedTag names s) (hpre : splitStart? pre = none)
    (hkeys : (props.map Prod.fst).Nodup)
    (hprops : ∀ p ∈ props, isAttributeName p.1.toList ∧ p.1 ∈ names ∧ Scans names (valueText p.2))
    (post : Text) : props.foldl (fun line (name, value) => setProp line name value)
        (pre ++ (s.opening ++ post))
      = pre ++ ((s.set props).opening ++ post) := by
  induction props generalizing s with
  | nil => rw [set_nil, List.foldl_nil]
  | cons p props ih =>
      obtain ⟨key, v⟩ := p
      rw [List.forall_mem_cons] at hprops
      obtain ⟨hname, hmem, hv⟩ := hprops.1
      obtain ⟨hkey, hrest⟩ := List.nodup_cons.mp hkeys
      rw [List.foldl_cons]
      simp only
      rw [setProp_opening hs hname hmem hpre, ih (isScannedTag_set hs hname hv) hrest hprops.2,
        ← set_cons hkey]

/-! ### Classes set -/

/-- Attributes with a string between the quotes of the first class attribute, whatever is in it. -/
def classParts (c : Text) : List Part → List Part
  | [] => []
  | p :: ps =>
    if p.name = "className" then
      ⟨p.gap, p.name, '=' :: '"' :: (c ++ ['"']), .quoted (String.ofList c)⟩ :: ps
    else p :: classParts c ps

/-- A tag with a string between the quotes of its class attribute. -/
def withClasses (c : Text) : Shell → Shell
  | .fragment => .fragment
  | .element t => .element { t with parts := classParts c t.parts }
  | .closed t => .closed { t with parts := classParts c t.parts }

lemma opening_withClasses (h : s.isFragment = false) (c : Text) :
    (withClasses c s).opening
      = '<' :: (s.name ++ (partsText (classParts c s.parts) ++ (s.gap ++ (s.slash ++ ['>'])))) := by
  cases s with
  | fragment => cases h
  | element t => exact Shell.opening_eq rfl
  | closed t => exact Shell.opening_eq rfl

@[simp] lemma isClosed_withClasses (c : Text) (s : Shell) :
    (withClasses c s).isClosed = s.isClosed := by
  cases s <;> rfl

/-- A tag whose class attribute is a string in double quotes, `before` standing before the tag on
its line: the first one of its name, and the first on the line. -/
structure IsClassed (before : Text) (s : Shell) (ps : List Part) (p : Part) (qs : List Part)
    (w : Text) : Prop where
  parts : s.parts = ps ++ p :: qs
  name : p.name = "className"
  behind : p.behind = '=' :: '"' :: (w ++ ['"'])
  free : '"' ∉ w
  first : ∀ q ∈ ps, q.name ≠ "className"
  fresh : Text.contains (before ++ '<' :: (s.name ++ (partsText ps ++ p.gap))) classStart = false

section Classes

variable {qs : List Part} {w classes : Text}

lemma IsClassed.classParts_eq (hs : IsClassed pre s ps p qs w) (c : Text) : classParts c s.parts
    = ps ++ ⟨p.gap, p.name, '=' :: '"' :: (c ++ ['"']), .quoted (String.ofList c)⟩ :: qs := by
  have hname := hs.name
  have hfirst := hs.first
  rw [hs.parts]
  clear hs
  induction ps with
  | nil => rw [List.nil_append, classParts, if_pos hname, List.nil_append]
  | cons q ps ih =>
      rw [List.forall_mem_cons] at hfirst
      rw [List.cons_append, classParts, if_neg hfirst.1, ih hfirst.2, List.cons_append]

/-- A value set under the name of the class attribute stands in its place. -/
lemma IsClassed.setParts_eq (hs : IsClassed pre s ps p qs w) (hv : v.isNull = false) :
    setParts [("className", v)] s.parts ++ addedParts [("className", v)] s.parts
      = ps ++ ⟨p.gap, p.name, valueText v, Script.Grammar.writtenValue v⟩ :: qs := by
  have hnot : ∀ q ∈ ps, q.name ≠ p.name := by
    rw [hs.name]
    exact hs.first
  have hadded : addedParts [(p.name, v)] (ps ++ p :: qs) = [] := by
    simp [addedParts]
  rw [hs.parts, ← hs.name, setParts_singleton hnot, hadded]
  simp [Part.set?, hv]

/-- A string without double quotes stands between the quotes as a value does. -/
lemma IsClassed.withClasses_eq_set (hs : IsClassed pre s ps p qs w) (hc : '"' ∉ classes) :
    withClasses classes s = s.set [("className", .string (String.ofList classes))] := by
  have hparts : classParts classes s.parts
      = setParts [("className", .string (String.ofList classes))] s.parts
        ++ addedParts [("className", .string (String.ofList classes))] s.parts := by
    rw [hs.classParts_eq, hs.setParts_eq rfl]
    simp [valueText, Script.Grammar.writtenValue, hc]
  cases s with
  | fragment => rfl
  | element t => exact congrArg (fun ps => Shell.element { t with parts := ps }) hparts
  | closed t => exact congrArg (fun ps => Shell.closed { t with parts := ps }) hparts

/-- A string with a double quote does not stand between the quotes as a value does. -/
lemma IsClassed.opening_append_ne (hs : IsClassed pre s ps p qs w)
    (hfragment : s.isFragment = false) (hc : '"' ∈ classes) (x y : Text) :
    (withClasses classes s).opening ++ x
      ≠ (s.set [("className", .string (String.ofList classes))]).opening ++ y := by
  have hvalue : valueText (.string (String.ofList classes))
      = '=' :: '\x7b' :: ((Value.string (String.ofList classes)).text ++ ['\x7d']) := by
    simp [valueText, hc]
  rw [opening_withClasses hfragment, Shell.opening_set hfragment, hs.classParts_eq,
    hs.setParts_eq rfl, hvalue]
  simp [Part.text]

/-- **Classes stand between the quotes of the class attribute**, without the blanks around them. -/
theorem setClassName_opening (hfragment : s.isFragment = false) (hs : IsClassed pre s ps p qs w)
    (classes post : Text) : setClassName (pre ++ (s.opening ++ post)) classes
      = pre ++ ((withClasses (Text.trim classes) s).opening ++ post) := by
  set before := pre ++ '<' :: (s.name ++ (partsText ps ++ p.gap)) with hbefore
  set after := partsText qs ++ (s.gap ++ (s.slash ++ '>' :: post)) with hafter
  have hname : p.name.toList = "className".toList := by rw [hs.name]
  have hclass : classStart = "className".toList ++ ['=', '"'] := by decide +kernel
  have hline : pre ++ (s.opening ++ post) = before ++ (classStart ++ (w ++ '"' :: after)) := by
    rw [Shell.opening_eq hfragment, hs.parts, hbefore, hafter, hclass]
    simp [Part.text, hname, hs.behind]
  have hcut : Text.cut? classStart (before ++ (classStart ++ (w ++ '"' :: after)))
      = some (before, w ++ '"' :: after) := by
    have hmark : classStart = "className=".toList ++ ['"'] := by decide +kernel
    have hfresh := hs.fresh
    rw [← hbefore, hmark] at hfresh
    rw [hmark]
    exact Text.cut?_of_contains_eq_false hfresh (by decide +kernel) _
  have hvalue : Text.cut? ['"'] (w ++ '"' :: after) = some (w, after) :=
    Text.cut?_singleton_eq_some_iff.mpr ⟨rfl, hs.free⟩
  rw [hline, setClassName]
  simp only [hcut, hvalue, Option.bind_eq_bind, Option.bind_some, Option.pure_def]
  rw [opening_withClasses hfragment, hs.classParts_eq, hbefore, hafter, hclass]
  simp [Part.text, hname]

end Classes

/-! ### A text set -/

/-- What stands behind a tag on its line, and what a text makes of it: the text takes the place of
what stands before a closing tag. -/
inductive IsContent (t post : Text) : Text → Prop where
  | kept : IsContent t post post
  | set {x y : Text} (hx : '<' ∉ x) (hpost : post = x ++ '<' :: '/' :: y) :
    IsContent t post (Markup.contentText t ++ '<' :: '/' :: y)

/-- **A text takes the place of what stands between two tags**, and changes nothing else. -/
theorem exists_setTextContent_opening (hs : IsScannedTag names s) (hpre : splitStart? pre = none)
    (t post : Text) : ∃ post', setTextContent (pre ++ (s.opening ++ post)) t
        = pre ++ (s.opening ++ post')
      ∧ IsContent t post post' ∧ (s.isClosed → post' = post) := by
  rw [setTextContent, split?_opening hs.isDelimited hpre]
  simp only [closesItself_tagOf hs.isDelimited]
  cases hclosed : s.isClosed with
  | true => exact ⟨post, rfl, .kept, fun _ => rfl⟩
  | false =>
      have hafter : (tagOf pre post s).after.drop 1 = post := rfl
      have hhead : (tagOf pre post s).head ++ ['>'] = pre ++ s.opening := by
        rw [Shell.opening_eq hs.fragment]
        simp [Tag.head, tagOf]
      simp only [Bool.false_eq_true, if_false, hafter]
      split
      · next rest hrest =>
          refine ⟨_, ?_, .set (x := post.takeWhile (· ≠ '<')) (y := rest) ?_ ?_, by simp⟩
          · rw [← List.append_assoc, ← hhead]
            simp
          · intro hmem
            simpa using List.all_eq_true.mp List.all_takeWhile _ hmem
          · rw [← hrest, List.takeWhile_append_dropWhile]
      · exact ⟨post, rfl, .kept, by simp⟩

/-! ### Several updates -/

/-- The edits of an update in their order. -/
lemma Updates.apply_eq (u : Updates) (line : Text) : u.apply line
    = let classed := u.className.elim line fun c => setClassName line c.toList
      u.props.foldl (fun line (name, value) => setProp line name value)
        (u.text.elim classed fun t => setTextContent classed t.toList) := by
  rw [Updates.apply]
  cases u.className <;> cases u.text <;> rfl

/-- A tag with the classes of an update. -/
def Updates.classed (u : Updates) (s : Shell) : Shell :=
  u.className.elim s fun c => withClasses (Text.trim c.toList) s

/-- A tag with the classes and the props of an update. -/
def Updates.tag (u : Updates) (s : Shell) : Shell := (u.classed s).set u.props

lemma Updates.closing_tag (u : Updates) (s : Shell) : (u.tag s).closing = s.closing := by
  rw [tag, classed]
  cases u.className <;> cases s <;> rfl

@[simp] lemma Updates.isClosed_classed (u : Updates) (s : Shell) :
    (u.classed s).isClosed = s.isClosed := by
  rw [classed]
  cases u.className <;> simp

/-- An update of an element that the scans of its line read as it is written: classes are set where
there are some, values are read as they are written, and nothing else is set along with a class
string that ends early. -/
structure Updates.Fits (u : Updates) (pre : Text) (s : Shell) : Prop where
  keys : (u.props.map Prod.fst).Nodup
  props : ∀ p ∈ u.props, isAttributeName p.1.toList ∧ Scans (u.props.map Prod.fst) (valueText p.2)
  alone : ∀ c ∈ u.className, '"' ∈ Text.trim c.toList → u.props = [] ∧ u.text = none
  silent : ∀ c ∈ u.className, ∀ n ∈ u.props.map Prod.fst,
    isSilent n.toList false ('=' :: '"' :: (Text.trim c.toList ++ ['"']))
  classed : u.className.isSome → ∃ ps p qs w, IsClassed pre s ps p qs w

section Several

variable {u : Updates}

lemma Updates.setClassName_opening (hfragment : s.isFragment = false) (hu : u.Fits pre s)
    (post : Text) : (u.className.elim (pre ++ (s.opening ++ post)) fun c =>
      setClassName (pre ++ (s.opening ++ post)) c.toList)
        = pre ++ ((u.classed s).opening ++ post) := by
  have hclassed := hu.classed
  rw [classed]
  cases hclass : u.className with
  | none => rfl
  | some c =>
      obtain ⟨ps, p, qs, w, hs⟩ := hclassed (by rw [hclass]; rfl)
      exact Line.setClassName_opening hfragment hs c.toList post

/-- A tag with classes is read as it is written, unless they end early. -/
lemma Updates.isScannedTag_classed (hs : IsScannedTag (u.props.map Prod.fst) s) (hu : u.Fits pre s)
    (hfree : ∀ c ∈ u.className, '"' ∉ Text.trim c.toList) :
    IsScannedTag (u.props.map Prod.fst) (u.classed s) := by
  rw [classed]
  cases hclass : u.className with
  | none => exact hs
  | some c =>
      obtain ⟨ps, p, qs, w, hclassed⟩ := hu.classed (by rw [hclass]; rfl)
      have hvalue : valueText (.string (String.ofList (Text.trim c.toList)))
          = '=' :: '"' :: (Text.trim c.toList ++ ['"']) := by
        simp [valueText, hfree c hclass]
      have hscans := scans_quoted (.inl rfl) (hfree c hclass) (hu.silent c hclass)
      rw [← hvalue] at hscans
      rw [Option.elim_some, hclassed.withClasses_eq_set (hfree c hclass)]
      exact isScannedTag_set hs (by decide +kernel) hscans

/-- **An update of the line of a tag sets the attributes of this tag**, and the text behind it if
there is one. -/
theorem exists_apply_opening (hs : IsScannedTag (u.props.map Prod.fst) s)
    (hpre : splitStart? pre = none) (hu : u.Fits pre s) (post : Text) :
    ∃ post', u.apply (pre ++ (s.opening ++ post)) = pre ++ ((u.tag s).opening ++ post')
      ∧ (post' = post ∨ ∃ t ∈ u.text, IsContent t.toList post post') ∧ (s.isClosed → post' = post)
      ∧ (u.text = none → post' = post) := by
  rw [Updates.apply_eq, Updates.setClassName_opening hs.fragment hu, Updates.tag]
  by_cases hquote : ∃ c ∈ u.className, '"' ∈ Text.trim c.toList
  · obtain ⟨c, hc, hmem⟩ := hquote
    obtain ⟨hprops, htext⟩ := hu.alone c hc hmem
    rw [hprops, htext, set_nil]
    exact ⟨post, rfl, .inl rfl, fun _ => rfl, fun _ => rfl⟩
  · have hscanned := Updates.isScannedTag_classed hs hu fun c hc hmem => hquote ⟨c, hc, hmem⟩
    have hfold (post' : Text) := foldl_setProp_opening hscanned hpre hu.keys (fun p hp =>
      ⟨(hu.props p hp).1, List.mem_map_of_mem hp, (hu.props p hp).2⟩) post'
    cases htext : u.text with
    | none =>
        simp only [Option.elim_none, hfold post]
        exact ⟨post, rfl, .inl rfl, fun _ => rfl, fun _ => rfl⟩
    | some t =>
        obtain ⟨post', hpost', hcontent, hclosed⟩ :=
          exists_setTextContent_opening hscanned hpre t.toList post
        simp only [Option.elim_some, hpost', hfold post']
        exact ⟨post', rfl, .inr ⟨t, rfl, hcontent⟩, by simpa using hclosed, by simp⟩

end Several

end CanvasSync.Line
