import LuaStubs.Lua.Lexer
import LuaStubs.Proofs.Layout

/-! The tokens of a stub file: comments leave none, and every statement leaves its own. Line numbers
are left out, since they only show in messages. -/
namespace LuaStubs.Lua

/-- The tokens of a text, whatever line it starts on and however much fuel is left over. -/
def Lexes (t : Text) (tokens : List Token) : Prop :=
  ∀ fuel line, t.length ≤ fuel → (scan fuel line t).map Lexeme.token = tokens

namespace Lexes

variable {t rest after : Text} {c : Char} {token : Token} {tokens : List Token}

theorem nil : Lexes [] [.eof] := by
  intro fuel line _
  cases fuel <;> rfl

theorem of_skip (next : ∀ line, ∃ line', Scan.next line c rest = .skip line' after)
    (shorter : after.length ≤ rest.length) (lexed : Lexes after tokens) :
    Lexes (c :: rest) tokens := by
  intro fuel line enough
  cases fuel with
  | zero => simp at enough
  | succ fuel =>
    obtain ⟨line',same⟩ := next line
    simp only [List.length_cons] at enough
    simpa only [scan,same] using lexed fuel line' (by omega)

theorem of_token (next : ∀ line, ∃ line', Scan.next line c rest = .token token line' after)
    (shorter : after.length ≤ rest.length) (lexed : Lexes after tokens) :
    Lexes (c :: rest) (token :: tokens) := by
  intro fuel line enough
  cases fuel with
  | zero => simp at enough
  | succ fuel =>
    obtain ⟨line',same⟩ := next line
    simp only [List.length_cons] at enough
    simp only [scan,same,List.map_cons]
    rw [lexed fuel line' (by omega)]

theorem space (lexed : Lexes t tokens) : Lexes (' ' :: t) tokens :=
  of_skip (fun line => ⟨line,rfl⟩) (Nat.le_refl _) lexed

/-- A carriage return would belong to the line feed before it. -/
theorem feed (start : t.head? ≠ some '\r') (lexed : Lexes t tokens) : Lexes ('\n' :: t) tokens := by
  have kept : afterNewline '\n' t = t := by
    cases t with
    | nil => rfl
    | cons d rest =>
      have notReturn : d ≠ '\r' := by simpa using start
      have same : (isNewline d && d != '\n') = false := by
        by_cases feed : d = '\n' <;> simp [isNewline,feed,notReturn]
      simp [afterNewline,same]
  have next (line : Nat) : ∃ line', Scan.next line '\n' t = .skip line' t := by
    refine ⟨line + 1,?_⟩
    change Scan.skip (line + 1) (afterNewline '\n' t) = _
    rw [kept]
  exact of_skip next (Nat.le_refl _) lexed

theorem remark {line : Text} (comment : Stub.IsRemark line) (lexed : Lexes ('\n' :: t) tokens) :
    Lexes (line ++ '\n' :: t) tokens := by
  obtain ⟨⟨d,body,rfl,notBracket⟩,unbroken⟩ := comment
  have whole : ∀ e ∈ d :: body, (!isNewline e) = true := by
    intro e member
    simp [unbroken e (by simp [List.mem_cons.mp member])]
  have next (line : Nat) : ∃ line', Scan.next line '-' ('-' :: d :: body ++ '\n' :: t) =
      .skip line' ('\n' :: t) := by
    refine ⟨line,?_⟩
    change Scan.comment line (d :: body ++ '\n' :: t) = _
    have short : Long.opening? (d :: body ++ '\n' :: t) = none := by
      rw [List.cons_append,Long.opening?]
      exact fun rest same => notBracket (List.cons.inj same).1
    rw [Scan.comment,short]
    simp only [Scan.skip.injEq,true_and]
    rw [List.dropWhile_append_of_pos whole]
    rfl
  exact of_skip next (by simp; omega) lexed

theorem nameHead_ne {d : Char} (head : isNameHead c = true) (other : isNameHead d = false) :
    c ≠ d := by
  rintro rfl
  simp [head] at other

theorem nameHead_digit (head : isNameHead c = true) : c.isDigit = false := by
  simp only [isNameHead,Bool.or_eq_true,beq_iff_eq] at head
  rcases head with alpha | rfl
  · cases digit : c.isDigit with
    | false => rfl
    | true =>
      have letters := Text.alpha_bounds alpha
      have digits := Text.digit_bounds digit
      omega
  · decide

theorem next_word (head : isNameHead c = true) (line : Nat) (rest : Text) :
    Scan.next line c rest = Scan.name line (c :: rest) := by
  have other {d : Char} (not : isNameHead d = false) : c ≠ d := nameHead_ne head not
  have newline : isNewline c = false := by
    simp [isNewline,other (d := '\n') (by decide),other (d := '\r') (by decide)]
  have space : isSpace c = false := by
    simp [isSpace,other (d := ' ') (by decide),other (d := '\t') (by decide),
      other (d := '\n') (by decide),other (d := '\x0b') (by decide),
      other (d := '\x0c') (by decide),other (d := '\r') (by decide)]
  have dashes : Text.startsWith (c :: rest) "--" = false := by
    simp [Text.startsWith,Text.after,(other (d := '-') (by decide)).symm]
  have pointed : Scan.isPointed (c :: rest) = false := by
    unfold Scan.isPointed
    split
    · rename_i same
      exact absurd (List.cons.inj same).1 (other (by decide))
    · rfl
  rw [Scan.next,dashes]
  simp [newline,space,pointed,nameHead_digit head,head,other (d := '[') (by decide),
    other (d := '"') (by decide),other (d := '\'') (by decide)]

/-- A name or a keyword, up to a character that cannot go on. -/
theorem word {w : Text} (head : isNameHead c = true) (tail : ∀ d ∈ w, isNameTail d = true)
    (ends : ∀ d ∈ t.head?, isNameTail d = false) (lexed : Lexes t tokens) :
    Lexes (c :: w ++ t) ((if keywords.contains (c :: w) then .key (String.ofList (c :: w))
      else .name (c :: w)) :: tokens) := by
  have first : isNameTail c = true := Phrase.nameTail_of_nameHead head
  have all : ∀ d ∈ c :: w, isNameTail d = true := by simpa [first] using tail
  have stop : t.takeWhile isNameTail = [] ∧ t.dropWhile isNameTail = t := by
    cases t with
    | nil => simp
    | cons d rest => simp [ends d (by simp)]
  have taken : (c :: w ++ t).takeWhile isNameTail = c :: w := by
    rw [List.takeWhile_append_of_pos all,stop.1,List.append_nil]
  have left : (c :: w ++ t).dropWhile isNameTail = t := by
    rw [List.dropWhile_append_of_pos all,stop.2]
  refine of_token (fun line => ⟨line,?_⟩) (by simp) lexed
  rw [next_word head]
  change Scan.name line (c :: w ++ t) = _
  rw [Scan.name,taken,left]

theorem name {w : Text} (valid : isName w = true) (ends : ∀ d ∈ t.head?, isNameTail d = false)
    (lexed : Lexes t tokens) : Lexes (w ++ t) (.name w :: tokens) := by
  cases w with
  | nil => simp [isName] at valid
  | cons c w =>
    simp only [isName,Bool.and_eq_true,List.all_eq_true,Bool.not_eq_true'] at valid
    obtain ⟨⟨head,tail⟩,free⟩ := valid
    have read := word head tail ends lexed
    rw [free] at read
    exact read

theorem keyFunction (lexed : Lexes t tokens) :
    Lexes (("function" : Text) ++ ' ' :: t) (.key "function" :: tokens) :=
  word (w := "unction") (by decide) (by decide) (by simp; decide) lexed.space

theorem keyLocal (lexed : Lexes t tokens) :
    Lexes (("local" : Text) ++ ' ' :: t) (.key "local" :: tokens) :=
  word (w := "ocal") (by decide) (by decide) (by simp; decide) lexed.space

theorem keyEnd (lexed : Lexes ('\n' :: t) tokens) :
    Lexes (("end" : Text) ++ '\n' :: t) (.key "end" :: tokens) :=
  word (w := "nd") (by decide) (by decide) (by simp; decide) lexed

theorem openParen (lexed : Lexes t tokens) : Lexes ('(' :: t) (.key "(" :: tokens) :=
  of_token (fun line => ⟨line,rfl⟩) (Nat.le_refl _) lexed

theorem closeParen (lexed : Lexes t tokens) : Lexes (')' :: t) (.key ")" :: tokens) :=
  of_token (fun line => ⟨line,rfl⟩) (Nat.le_refl _) lexed

theorem comma (lexed : Lexes t tokens) : Lexes (',' :: t) (.key "," :: tokens) :=
  of_token (fun line => ⟨line,rfl⟩) (Nat.le_refl _) lexed

theorem openBrace (lexed : Lexes t tokens) : Lexes ('\x7b' :: t) (.key "\x7b" :: tokens) :=
  of_token (fun line => ⟨line,rfl⟩) (Nat.le_refl _) lexed

theorem closeBrace (lexed : Lexes t tokens) : Lexes ('\x7d' :: t) (.key "\x7d" :: tokens) :=
  of_token (fun line => ⟨line,rfl⟩) (Nat.le_refl _) lexed

theorem equals (lexed : Lexes t tokens) : Lexes ('=' :: ' ' :: t) (.key "=" :: tokens) :=
  of_token (fun line => ⟨line,rfl⟩) (Nat.le_refl _) lexed.space

theorem varargs (lexed : Lexes t tokens) : Lexes ('.' :: '.' :: '.' :: t) (.key "..." :: tokens) :=
  of_token (fun line => ⟨line,rfl⟩) (by simp; omega) lexed

/-- A dot before a name is an index. -/
theorem dot (head : isNameHead c = true) (lexed : Lexes (c :: t) tokens) :
    Lexes ('.' :: c :: t) (.key "." :: tokens) := by
  have notDot : '.' ≠ c := (nameHead_ne head (by decide)).symm
  refine of_token (fun line => ⟨line,?_⟩) (Nat.le_refl _) lexed
  have pointed : Scan.isPointed ('.' :: c :: t) = false := nameHead_digit head
  change (if (Char.isDigit '.' || Scan.isPointed ('.' :: c :: t)) = true then _ else
    Scan.operator line '.' (c :: t)) = _
  rw [pointed]
  simp [Scan.operator,Scan.operators,Scan.operator?,Text.after,notDot]

/-- A colon before a name calls a method. -/
theorem colon (head : isNameHead c = true) (lexed : Lexes (c :: t) tokens) :
    Lexes (':' :: c :: t) (.key ":" :: tokens) := by
  have notColon : ':' ≠ c := (nameHead_ne head (by decide)).symm
  refine of_token (fun line => ⟨line,?_⟩) (Nat.le_refl _) lexed
  change Scan.operator line ':' (c :: t) = _
  simp [Scan.operator,Scan.operators,Scan.operator?,Text.after,notColon]

end Lexes
end LuaStubs.Lua

namespace LuaStubs.Stub

open Lua (Lexes)

def paramToken (name : Text) : Lua.Token :=
  if name = Api.varargsName then .key "..." else .name name

def declarationTokens (name : Text) (params : List Text) : List Lua.Token :=
  .name name :: .key "(" :: ((params.map paramToken).intersperse (.key ",") ++
    [.key ")", .key "end"])

def Statement.tokens : Statement → List Lua.Token
  | .moduleTable space name =>
    [.name space, .key ".", .name name, .key "=", .key "\x7b", .key "\x7d"]
  | .classTable name => [.key "local", .name name, .key "=", .key "\x7b", .key "\x7d"]
  | .moduleFunction space owner name params =>
    [.key "function", .name space, .key ".", .name owner, .key "."] ++ declarationTokens name params
  | .method owner name params =>
    [.key "function", .name owner, .key ":"] ++ declarationTokens name params

theorem lexes_dot {name t : Text} {tokens : List Lua.Token} (valid : Lua.isName name = true)
    (lexed : Lexes (name ++ t) tokens) : Lexes ('.' :: (name ++ t)) (.key "." :: tokens) := by
  obtain ⟨c,rest,rfl,head⟩ := name_head valid
  exact lexed.dot head

theorem lexes_colon {name t : Text} {tokens : List Lua.Token} (valid : Lua.isName name = true)
    (lexed : Lexes (name ++ t) tokens) : Lexes (':' :: (name ++ t)) (.key ":" :: tokens) := by
  obtain ⟨c,rest,rfl,head⟩ := name_head valid
  exact lexed.colon head

theorem lexes_param {name t : Text} {tokens : List Lua.Token} (valid : IsParamName name)
    (ends : ∀ d ∈ t.head?, Lua.isNameTail d = false) (lexed : Lexes t tokens) :
    Lexes (name ++ t) (paramToken name :: tokens) := by
  rcases valid with rfl | valid
  · exact lexed.varargs
  · have fixed : name ≠ Api.varargsName := by
      rintro rfl
      simp [Lua.isName,Api.varargsName,Lua.isNameHead] at valid
    simpa [paramToken,fixed] using lexed.name valid ends

theorem lexes_params {params : List Text} {t : Text} {tokens : List Lua.Token}
    (valid : ∀ p ∈ params, IsParamName p) (lexed : Lexes (')' :: t) tokens) :
    Lexes (Text.join ", " params ++ ')' :: t)
      ((params.map paramToken).intersperse (.key ",") ++ tokens) := by
  induction params with
  | nil => exact lexed
  | cons first rest ih =>
    have here := valid first (by simp)
    cases rest with
    | nil => simpa using lexes_param here (by simp; decide) lexed
    | cons second rest =>
      have later := ih fun p member => valid p (by simp [List.mem_cons.mp member])
      simpa using lexes_param here (by simp; decide) later.space.comma

theorem lexes_declaration {name t : Text} {params : List Text} {tokens : List Lua.Token}
    (valid : Lua.isName name = true) (all : ∀ p ∈ params, IsParamName p)
    (lexed : Lexes ('\n' :: t) tokens) :
    Lexes (name ++ '(' :: (Text.join ", " params ++ ')' :: ' ' :: ("end" ++ '\n' :: t)))
      (declarationTokens name params ++ tokens) := by
  have ended := lexes_params all lexed.keyEnd.space.closeParen
  simpa [declarationTokens] using ended.openParen.name valid (by simp; decide)

theorem lexes_table {t : Text} {tokens : List Lua.Token} (lexed : Lexes ('\n' :: t) tokens) :
    Lexes (" = \x7b\x7d" ++ '\n' :: t) (.key "=" :: .key "\x7b" :: .key "\x7d" :: tokens) :=
  lexed.closeBrace.openBrace.equals.space

theorem lexes_statement {statement : Statement} {t : Text} {tokens : List Lua.Token}
    (named : statement.Named) (lexed : Lexes ('\n' :: t) tokens) :
    Lexes (statement.line ++ '\n' :: t) (statement.tokens ++ tokens) := by
  cases statement with
  | moduleTable space name =>
    have field := (lexes_table lexed).name named.2 (by simp; decide)
    simpa [Statement.line,Statement.tokens,tableLine] using
      (lexes_dot named.2 field).name named.1 (by simp; decide)
  | classTable name =>
    have table := (lexes_table lexed).name named (by simp; decide)
    rw [Statement.line]
    unfold localLine tableLine
    simpa [Statement.tokens] using table.keyLocal
  | moduleFunction space owner name params =>
    obtain ⟨spaceName,ownerName,valid,all⟩ := named
    have declared := lexes_dot valid (lexes_declaration valid all lexed)
    have field := lexes_dot ownerName (declared.name ownerName (by simp; decide))
    rw [Statement.line]
    unfold declarationLine
    simpa [Statement.tokens] using
      (field.name spaceName (by simp; decide)).keyFunction
  | method owner name params =>
    obtain ⟨ownerName,valid,all⟩ := named
    have declared := lexes_colon valid (lexes_declaration valid all lexed)
    rw [Statement.line]
    unfold declarationLine
    simpa [Statement.tokens] using
      (declared.name ownerName (by simp; decide)).keyFunction

theorem unlines_head {lines : List Text} {statements : List Statement}
    (lays : Lays lines statements) (named : ∀ s ∈ statements, s.Named) :
    (unlines lines).head? ≠ some '\r' := by
  cases lays with
  | done => simp [unlines]
  | blank _ => simp [unlines]
  | remark comment _ =>
    obtain ⟨c,rest,rfl,_⟩ := comment.dashes
    simp [unlines]
  | code statement _ =>
    obtain ⟨c,rest,line,head⟩ := statement_line_head (named statement (by simp))
    simp [unlines,line,Lexes.nameHead_ne head (show Lua.isNameHead '\r' = false by decide)]

/-- The tokens of a stub file are those of its statements. -/
theorem lexes_unlines {lines : List Text} {statements : List Statement}
    (lays : Lays lines statements) (named : ∀ s ∈ statements, s.Named) :
    Lexes (unlines lines) (statements.flatMap Statement.tokens ++ [.eof]) := by
  induction lays with
  | done => exact .nil
  | blank rest ih => simpa [unlines] using (ih named).feed (unlines_head rest named)
  | remark comment rest ih =>
    simpa [unlines] using Lexes.remark comment ((ih named).feed (unlines_head rest named))
  | code statement rest ih =>
    have others := fun s member => named s (List.mem_cons_of_mem _ member)
    simpa [unlines] using lexes_statement (named statement (by simp))
      ((ih others).feed (unlines_head rest others))

end LuaStubs.Stub
