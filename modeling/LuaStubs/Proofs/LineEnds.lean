import LuaStubs.Proofs.Annotations

/-! Line ends of descriptions. A line feed, a carriage return and both together end a line alike, but for a
carriage return at the very end of a text: behind it stands one more line, without text. -/
namespace LuaStubs.Stub

open Phrase (consFirst)

/-- A carriage return goes where a line feed follows it. -/
def joinReturns : Text → Text
  | [] => []
  | '\r' :: '\n' :: t => '\n' :: joinReturns t
  | c :: t => c :: joinReturns t

/-- Every line end as a line feed: first the two characters together, then the carriage returns left. -/
def feeds (t : Text) : Text := (joinReturns t).map fun c => if c = '\r' then '\n' else c

theorem feeds_feed (t : Text) : feeds ('\n' :: t) = '\n' :: feeds t := by
  simp [feeds,joinReturns]

theorem feeds_returnFeed (t : Text) : feeds ('\r' :: '\n' :: t) = '\n' :: feeds t := by
  simp [feeds,joinReturns]

theorem feeds_return {t : Text} (alone : t.head? ≠ some '\n') : feeds ('\r' :: t) = '\n' :: feeds t := by
  cases t with
  | nil => rfl
  | cons c t =>
    have other : c ≠ '\n' := by simpa using alone
    simp [feeds,joinReturns,other]

theorem feeds_cons {c : Char} {t : Text} (inLine : Lua.isNewline c = false) :
    feeds (c :: t) = c :: feeds t := by
  simp only [Lua.isNewline,Bool.or_eq_false_iff,beq_eq_false_iff_ne] at inLine
  simp [feeds,joinReturns,inLine.2]

theorem feeds_eq_nil {t : Text} : feeds t = [] ↔ t = [] := by
  induction t using lineInduction with
  | nil => simp [feeds,joinReturns]
  | feed t _ => simp [feeds_feed]
  | returnFeed t _ => simp [feeds_returnFeed]
  | alone t second _ => simp [feeds_return second]
  | char c t inLine _ => simp [feeds_cons inLine]

theorem return_not_mem_feeds (t : Text) : '\r' ∉ feeds t := by
  intro member
  obtain ⟨c,_,same⟩ := List.mem_map.mp member
  split at same
  · contradiction
  · contradiction

theorem feeds_of_not_mem {t : Text} (none : '\r' ∉ t) : feeds t = t := by
  induction t using lineInduction with
  | nil => rfl
  | feed t ih => rw [feeds_feed,ih fun member => none (by simp [member])]
  | returnFeed t _ => simp at none
  | alone t second _ => simp at none
  | char c t inLine ih => rw [feeds_cons inLine,ih fun member => none (by simp [member])]

def EndsInReturn (t : Text) : Prop := t.getLast? = some '\r'

instance (t : Text) : Decidable (EndsInReturn t) := inferInstanceAs (Decidable (_ = _))

def lastLine (t : Text) : List Text := if EndsInReturn t then [[]] else []

theorem lastLine_cons {c : Char} (other : c ≠ '\r') (t : Text) : lastLine (c :: t) = lastLine t := by
  cases t with
  | nil => simp [lastLine,EndsInReturn,other]
  | cons d t => simp [lastLine,EndsInReturn,List.getLast?_cons]

theorem lastLine_return {t : Text} (some : t ≠ []) : lastLine ('\r' :: t) = lastLine t := by
  obtain ⟨c,t,rfl⟩ := List.exists_cons_of_ne_nil some
  simp [lastLine,EndsInReturn,List.getLast?_cons]

theorem lastLine_of_not_mem {t : Text} (none : '\r' ∉ t) : lastLine t = [] :=
  if_neg fun last => none (List.mem_of_getLast? last)

theorem map_lastLine_inj {a b : Text} (g : Text → Text) :
    (lastLine a).map g = (lastLine b).map g ↔ (EndsInReturn a ↔ EndsInReturn b) := by
  unfold lastLine
  by_cases first : EndsInReturn a <;> by_cases second : EndsInReturn b <;> simp [first,second]

theorem lastLine_congr {a b : Text} (same : EndsInReturn a ↔ EndsInReturn b) : lastLine a = lastLine b := by
  simp only [lastLine,same]

theorem lines_feeds_ne_nil {t : Text} (some : t ≠ []) : Text.lines (feeds t) ≠ [] :=
  fun none => some (feeds_eq_nil.mp (lines_eq_nil none))

/-- Free text is cut at every line end; only a carriage return at its end leaves a line more. -/
theorem textLines_eq_lines (t : Text) : textLines t = Text.lines (feeds t) ++ lastLine t := by
  induction t using lineInduction with
  | nil => rfl
  | feed t ih =>
    rw [textLines_feed,feeds_feed,lines_feed,lastLine_cons (by decide),ih]
    rfl
  | returnFeed t ih =>
    rw [textLines_returnFeed,feeds_returnFeed,lines_feed,lastLine_return (by simp),
      lastLine_cons (by decide),ih]
    rfl
  | alone t second ih =>
    rw [textLines_return second,feeds_return second,lines_feed]
    -- at the end of the text the line feed in its place ends the line before it, but begins none
    by_cases empty : t = []
    · subst empty
      rfl
    · rw [if_neg empty,lastLine_return empty,ih]
      rfl
  | char c t inLine ih =>
    have ends : c ≠ '\n' ∧ c ≠ '\r' := by simpa [Lua.isNewline] using inLine
    rw [textLines_cons inLine,feeds_cons inLine,lines_cons ends.1 (Or.inl ends.2),
      lastLine_cons ends.2,ih]
    by_cases empty : t = []
    · subst empty
      rfl
    · obtain ⟨first,rest,lines⟩ := List.exists_cons_of_ne_nil (lines_feeds_ne_nil empty)
      simp [lines,consFirst]

theorem textLines_feeds (t : Text) : textLines (feeds t) = Text.lines (feeds t) := by
  have none := return_not_mem_feeds t
  rw [textLines_eq_lines,feeds_of_not_mem none,lastLine_of_not_mem none,List.append_nil]

theorem docLines_feeds (t : Text) :
    docLines t = docLines (feeds t) ++ (lastLine t).map (("---" : Text) ++ ·) := by
  unfold docLines
  rw [← List.map_append,textLines_feeds,textLines_eq_lines]

theorem describedLines_feeds (head mark t : Text) : describedLines head mark t =
    describedLines head mark (feeds t) ++ (lastLine t).map (("---" : Text) ++ ·) := by
  rw [describedLines_titled,describedLines_titled,titled,titled,textLines_feeds,textLines_eq_lines]
  by_cases empty : t = []
  · subst empty
    rfl
  · obtain ⟨first,rest,lines⟩ := List.exists_cons_of_ne_nil (lines_feeds_ne_nil empty)
    simp [lines,empty,feeds_eq_nil]

theorem feeds_append (a : Text) {b : Text} (apart : b.head? ≠ some '\n') :
    feeds (a ++ b) = feeds a ++ feeds b := by
  induction a using lineInduction with
  | nil => rfl
  | feed a ih => simp [feeds_feed,ih]
  | returnFeed a ih => simp [feeds_returnFeed,ih]
  | alone a second ih =>
    have next : (a ++ b).head? ≠ some '\n' := by
      cases a with
      | nil => exact apart
      | cons c a => exact second
    rw [List.cons_append,feeds_return next,feeds_return second,ih]
    rfl
  | char c a inLine ih => simp [feeds_cons inLine,ih]

theorem feeds_trimStart (t : Text) : feeds (Text.trimStart t) = Text.trimStart (feeds t) := by
  have feed (t : Text) : Text.trimStart ('\n' :: t) = Text.trimStart t := rfl
  have alone (t : Text) : Text.trimStart ('\r' :: t) = Text.trimStart t := rfl
  induction t using lineInduction with
  | nil => rfl
  | feed t ih => rw [feeds_feed,feed,feed,ih]
  | returnFeed t ih => rw [feeds_returnFeed,alone,feed,feed,ih]
  | alone t second ih => rw [feeds_return second,alone,feed,ih]
  | char c t inLine ih =>
    rw [feeds_cons inLine]
    cases blank : Text.isBlank c with
    | true =>
      have dropped (t : Text) : Text.trimStart (c :: t) = Text.trimStart t :=
        List.dropWhile_cons_of_pos blank
      rw [dropped,dropped,ih]
    | false => rw [Text.trimStart_cons blank,Text.trimStart_cons blank,feeds_cons inLine]

theorem endsInReturn_trimStart {t : Text} :
    EndsInReturn (Text.trimStart t) ↔ Text.trimStart t ≠ [] ∧ EndsInReturn t := by
  obtain ⟨a,whole,_⟩ := Text.eq_trimStart t
  by_cases empty : Text.trimStart t = []
  · simp [empty,EndsInReturn]
  · obtain ⟨last,ends⟩ := Option.isSome_iff_exists.mp (List.getLast?_isSome.mpr empty)
    have same : t.getLast? = some last := by
      rw [whole,List.getLast?_append,ends]
      rfl
    simp [EndsInReturn,ends,same,empty]

/-- Two texts that differ in their line ends only, but both or neither end in a carriage return. -/
structure Alike (a b : Text) : Prop where
  feeds : feeds a = feeds b
  last : EndsInReturn a ↔ EndsInReturn b

namespace Alike

variable {a b : Text}

theorem textLines (alike : Alike a b) : textLines a = textLines b := by
  rw [textLines_eq_lines,textLines_eq_lines,alike.feeds,lastLine_congr alike.last]

theorem isEmpty (alike : Alike a b) : a.isEmpty = b.isEmpty := by
  rw [Bool.eq_iff_iff,List.isEmpty_iff,List.isEmpty_iff,← feeds_eq_nil,alike.feeds,feeds_eq_nil]

theorem docLines (alike : Alike a b) : docLines a = docLines b := by
  unfold Stub.docLines
  rw [alike.textLines]

theorem describedLines (alike : Alike a b) (head mark : Text) :
    describedLines head mark a = describedLines head mark b := by
  rw [describedLines_feeds,alike.feeds,lastLine_congr alike.last,← describedLines_feeds]

theorem append (alike : Alike a b) {t : Text} (apart : t.head? ≠ some '\n') :
    Alike (a ++ t) (b ++ t) := by
  constructor
  · rw [feeds_append a apart,feeds_append b apart,alike.feeds]
  · unfold EndsInReturn
    rw [List.getLast?_append,List.getLast?_append]
    cases t.getLast? with
    | none => exact alike.last
    | some c => exact Iff.rfl

theorem trimStart (alike : Alike a b) : Alike (Text.trimStart a) (Text.trimStart b) := by
  have ends : Stub.feeds (Text.trimStart a) = Stub.feeds (Text.trimStart b) := by
    rw [feeds_trimStart,feeds_trimStart,alike.feeds]
  have empty : Text.trimStart a = [] ↔ Text.trimStart b = [] := by
    rw [← feeds_eq_nil,ends,feeds_eq_nil]
  refine ⟨ends,?_⟩
  rw [endsInReturn_trimStart,endsInReturn_trimStart,alike.last,Ne,empty]

end Alike

def Param.reworded (f : Text → Text) (p : Param) : Param := { p with description := f p.description }

def Return.reworded (f : Text → Text) (r : Return) : Return := { r with description := f r.description }

def Signature.reworded (f : Text → Text) (s : Signature) : Signature :=
  ⟨s.params.map (Param.reworded f),s.returns.map (Return.reworded f),f s.description⟩

def Function.reworded (f : Text → Text) (g : Function) : Function :=
  { g with
    description := f g.description
    primary := g.primary.reworded f
    alternates := g.alternates.map (Signature.reworded f) }

def Class.reworded (f : Text → Text) (c : Class) : Class :=
  { c with description := f c.description, methods := c.methods.map (Function.reworded f) }

def Enum.reworded (f : Text → Text) (e : Enum) : Enum :=
  { e with
    description := f e.description
    constants := e.constants.map fun constant => (constant.1,f constant.2) }

def Module.reworded (f : Text → Text) (m : Module) : Module where
  name := m.name
  description := f m.description
  classes := m.classes.map (Class.reworded f)
  enums := m.enums.map (Enum.reworded f)
  functions := m.functions.map (Function.reworded f)

def Signature.descriptions (s : Signature) : List Text :=
  s.description :: (s.params.map Param.description ++ s.returns.map Return.description)

def Function.descriptions (g : Function) : List Text :=
  g.description :: (g.primary :: g.alternates).flatMap Signature.descriptions

def Class.descriptions (c : Class) : List Text := c.description :: c.methods.flatMap Function.descriptions

def Enum.descriptions (e : Enum) : List Text := e.description :: e.constants.map Prod.snd

def Module.descriptions (m : Module) : List Text :=
  m.description :: (m.classes.flatMap Class.descriptions ++ m.enums.flatMap Enum.descriptions ++
    m.functions.flatMap Function.descriptions)

section

variable {f : Text → Text}

theorem flatMap_changed {change : α → α} {parts : α → List β} {l : List α}
    (same : ∀ a ∈ l, parts (change a) = parts a) : (l.map change).flatMap parts = l.flatMap parts := by
  rw [List.flatMap_def,List.flatMap_def,List.map_map]
  exact congrArg List.flatten (List.map_congr_left same)

theorem Param.lines_reworded {p : Param} (alike : Alike (f p.description) p.description) :
    (p.reworded f).lines = p.lines := by
  have remark : Alike (p.reworded f).remark p.remark := by
    -- a default starts with a space, so no line end of the description runs on into it
    refine (alike.append ?_).trimStart
    cases (p.reworded f).default <;> simp
  exact remark.describedLines _ _

theorem Return.lines_reworded {r : Return} (alike : Alike (f r.description) r.description) :
    (r.reworded f).lines = r.lines :=
  alike.describedLines _ _

theorem Signature.overloadLine_reworded (f : Text → Text) (self : Option Text) (s : Signature) :
    (s.reworded f).overloadLine self = s.overloadLine self := by
  have params : (s.reworded f).params.map Param.inOverload = s.params.map Param.inOverload :=
    List.map_map
  have returns : (s.reworded f).returns.map Return.rendered = s.returns.map Return.rendered :=
    List.map_map
  unfold overloadLine funType
  rw [params]
  cases given : s.returns with
  | nil => simp only [Signature.reworded,given,List.map_nil]
  | cons first rest =>
    rw [given] at returns
    simp only [Signature.reworded,given,List.map_cons] at returns ⊢
    rw [returns]

theorem Signature.overloadLines_reworded {self : Option Text} {s : Signature}
    (alike : Alike (f s.description) s.description) :
    (s.reworded f).overloadLines self = s.overloadLines self := by
  unfold overloadLines
  rw [overloadLine_reworded]
  exact congrArg (· ++ _) alike.docLines

theorem Function.docLines_reworded {g : Function} (whole : Alike (f g.description) g.description)
    (signature : Alike (f g.primary.description) g.primary.description) :
    (g.reworded f).docLines = g.docLines := by
  unfold Function.docLines Function.reworded Signature.reworded
  rw [whole.docLines,whole.isEmpty,signature.docLines,signature.isEmpty]

theorem Function.declaration_reworded (f : Text → Text) (g : Function) (owner : Text)
    (self : Option Text) : (g.reworded f).declaration owner self = g.declaration owner self := by
  have names : (g.reworded f).primary.params.map Param.name = g.primary.params.map Param.name :=
    List.map_map
  unfold declaration
  rw [names]
  rfl

theorem Function.lines_reworded {owner : Text} {self : Option Text} {g : Function}
    (alike : ∀ d ∈ g.descriptions, Alike (f d) d) :
    (g.reworded f).lines owner self = g.lines owner self := by
  have inSignature {s : Signature} (member : s ∈ g.primary :: g.alternates) :
      ∀ d ∈ s.descriptions, Alike (f d) d := fun d inside =>
    alike d (List.mem_cons_of_mem _ (List.mem_flatMap.mpr ⟨s,member,inside⟩))
  have primary := inSignature List.mem_cons_self
  have params : (g.reworded f).primary.params.flatMap Param.lines = g.primary.params.flatMap Param.lines :=
    flatMap_changed fun p member =>
      Param.lines_reworded (primary _ (by simp [Signature.descriptions,List.mem_map_of_mem member]))
  have returns : (g.reworded f).primary.returns.flatMap Return.lines =
      g.primary.returns.flatMap Return.lines :=
    flatMap_changed fun r member =>
      Return.lines_reworded (primary _ (by simp [Signature.descriptions,List.mem_map_of_mem member]))
  have alternates : (g.reworded f).alternates.flatMap (Signature.overloadLines self) =
      g.alternates.flatMap (Signature.overloadLines self) :=
    flatMap_changed fun s member =>
      Signature.overloadLines_reworded (inSignature (by simp [member]) _ List.mem_cons_self)
  unfold Function.lines
  rw [params,returns,alternates,declaration_reworded,
    docLines_reworded (alike _ List.mem_cons_self) (primary _ List.mem_cons_self)]

theorem Class.lines_reworded {c : Class} (alike : ∀ d ∈ c.descriptions, Alike (f d) d) :
    (c.reworded f).lines = c.lines := by
  have methods : (c.reworded f).methods.flatMap (fun g => [] :: g.lines c.name (some c.qualified)) =
      c.methods.flatMap fun g => [] :: g.lines c.name (some c.qualified) :=
    flatMap_changed fun g member => congrArg ([] :: ·) (Function.lines_reworded fun d inside =>
      alike d (List.mem_cons_of_mem _ (List.mem_flatMap.mpr ⟨g,member,inside⟩)))
  have description : docLines (c.reworded f).description = docLines c.description :=
    (alike _ List.mem_cons_self).docLines
  unfold Class.lines
  rw [description]
  exact congrArg (_ ++ · ++ _) methods

theorem Enum.lines_reworded {e : Enum} (alike : ∀ d ∈ e.descriptions, Alike (f d) d) :
    (e.reworded f).lines = e.lines := by
  have constants : (e.reworded f).constants.flatMap (fun c => constantLines c.1 c.2) =
      e.constants.flatMap fun c => constantLines c.1 c.2 :=
    flatMap_changed fun c member => Alike.describedLines
      (alike _ (List.mem_cons_of_mem _ (List.mem_map_of_mem member))) _ _
  have description : docLines (e.reworded f).description = docLines e.description :=
    (alike _ List.mem_cons_self).docLines
  unfold Enum.lines
  rw [description]
  exact congrArg (_ ++ ·) constants

theorem Module.lines_reworded {m : Module} {space : Text} (alike : ∀ d ∈ m.descriptions, Alike (f d) d) :
    (m.reworded f).lines space = m.lines space := by
  have inPart {d : Text} (member : d ∈ m.classes.flatMap Class.descriptions ∨
      d ∈ m.enums.flatMap Enum.descriptions ∨ d ∈ m.functions.flatMap Function.descriptions) :
      Alike (f d) d := alike d (List.mem_cons_of_mem _ (by simpa [or_assoc] using member))
  have classes : (m.reworded f).classes.flatMap Class.lines = m.classes.flatMap Class.lines :=
    flatMap_changed fun c member => Class.lines_reworded fun d inside =>
      inPart (Or.inl (List.mem_flatMap.mpr ⟨c,member,inside⟩))
  have enums : (m.reworded f).enums.flatMap Enum.lines = m.enums.flatMap Enum.lines :=
    flatMap_changed fun e member => Enum.lines_reworded fun d inside =>
      inPart (Or.inr (Or.inl (List.mem_flatMap.mpr ⟨e,member,inside⟩)))
  have functions (table : Text) :
      (m.reworded f).functions.flatMap (fun g => [] :: g.lines table none) =
        m.functions.flatMap fun g => [] :: g.lines table none :=
    flatMap_changed fun g member => congrArg ([] :: ·) (Function.lines_reworded fun d inside =>
      inPart (Or.inr (Or.inr (List.mem_flatMap.mpr ⟨g,member,inside⟩))))
  have description : docLines (m.reworded f).description = docLines m.description :=
    (alike _ List.mem_cons_self).docLines
  unfold Module.lines
  rw [description,classes,enums]
  exact congrArg (_ ++ ·) (functions _)

theorem Signature.faults_reworded (f : Text → Text) (subject : Text) (s : Signature) :
    (s.reworded f).faults subject = s.faults subject := by
  have params : (s.reworded f).params.flatMap
      (fun p => paramNameFaults subject p.name ++ typeFaults subject p.base) =
        s.params.flatMap fun p => paramNameFaults subject p.name ++ typeFaults subject p.base :=
    flatMap_changed fun _ _ => rfl
  have returns : (s.reworded f).returns.flatMap (fun r => typeFaults subject r.rendered) =
      s.returns.flatMap fun r => typeFaults subject r.rendered := flatMap_changed fun _ _ => rfl
  unfold Signature.faults
  rw [params,returns]

theorem Function.faults_reworded (f : Text → Text) (parent : Text) (g : Function) :
    (g.reworded f).faults parent = g.faults parent := by
  have params (subject : Text) : (g.reworded f).primary.params.flatMap (Param.faults subject) =
      g.primary.params.flatMap (Param.faults subject) := flatMap_changed fun _ _ => rfl
  have returns (subject : Text) : (g.reworded f).primary.returns.flatMap (Return.faults subject) =
      g.primary.returns.flatMap (Return.faults subject) := flatMap_changed fun _ _ => rfl
  have alternates (subject : Text) : (g.reworded f).alternates.flatMap (Signature.faults subject) =
      g.alternates.flatMap (Signature.faults subject) :=
    flatMap_changed fun s _ => Signature.faults_reworded f subject s
  unfold Function.faults
  simp only
  rw [params,returns,alternates]
  rfl

theorem Class.faults_reworded (f : Text → Text) (parent : Text) (c : Class) :
    (c.reworded f).faults parent = c.faults parent := by
  unfold Class.faults Class.reworded
  simp only
  rw [flatMap_changed fun g _ => Function.faults_reworded f _ g]

theorem Module.faults_reworded (f : Text → Text) (m : Module) : (m.reworded f).faults = m.faults := by
  unfold Module.faults Module.reworded
  simp only
  rw [flatMap_changed fun c _ => Class.faults_reworded f _ c,
    flatMap_changed fun g _ => Function.faults_reworded f _ g]

theorem Module.emit_reworded {m : Module} {space : Text} (alike : ∀ d ∈ m.descriptions, Alike (f d) d) :
    (m.reworded f).emit space = m.emit space := by
  unfold emit
  rw [faults_reworded,lines_reworded alike]

end

/-- The lines of a free text are those of the text with line feeds for all line ends, and one line without
text more where it ends in a carriage return. So texts that differ in their line ends only give the same
comments just if both or neither end in one, and a module with such descriptions is written as before. -/
theorem comments_of_line_ends (t : Text) (f : Text → Text) (m : Module) (space : Text) :
    textLines t = Text.lines (feeds t) ++ (if EndsInReturn t then [[]] else []) ∧
    (textLines t = Text.lines (feeds t) ↔ ¬EndsInReturn t) ∧
    (∀ u, feeds u = feeds t → (docLines u = docLines t ↔ (EndsInReturn u ↔ EndsInReturn t)) ∧
      ∀ head mark, describedLines head mark u = describedLines head mark t ↔
        (EndsInReturn u ↔ EndsInReturn t)) ∧
    ((∀ d ∈ m.descriptions, feeds (f d) = feeds d ∧ (EndsInReturn (f d) ↔ EndsInReturn d)) →
      (m.reworded f).emit space = m.emit space) := by
  have lines := textLines_eq_lines t
  refine ⟨lines,?_,fun u same => ⟨?_,fun head mark => ?_⟩,fun alike => ?_⟩
  · rw [lines]
    by_cases ends : EndsInReturn t <;> simp [lastLine,ends]
  · rw [docLines_feeds u,docLines_feeds t,same,List.append_cancel_left_eq,map_lastLine_inj]
  · rw [describedLines_feeds head mark u,describedLines_feeds head mark t,same,
      List.append_cancel_left_eq,map_lastLine_inj]
  · exact Module.emit_reworded fun d member => ⟨(alike d member).1,(alike d member).2⟩

example : docLines "Draws.\r" = (["---Draws.","---"] : List Text) ∧
    docLines "Draws.\r\n" = (["---Draws."] : List Text) := by decide

end LuaStubs.Stub
