import DiceLanguage.Proofs.Token.Longest

namespace DiceLanguage

/-- The tokens of a text that begins at the given place, cut off one after the other. -/
inductive Laid : Position → List Char → Tokens → Prop
  | last {start : Position} {gap : List Char} (blank : ∀ c ∈ gap, Text.isGap c = true) :
    Laid start gap
      ⟨[], ⟨.endOfText, "", String.ofList gap, (start.after gap).column, (start.after gap).offset⟩⟩
  | cut {start : Position} {gap : List Char} {lexeme : Lexeme} {tokens : Tokens}
    (blank : ∀ c ∈ gap, Text.isGap c = true) (longest : lexeme.IsLongest)
    (later : Laid ((start.after gap).after lexeme.text) lexeme.rest tokens) :
    Laid start (gap ++ (lexeme.text ++ lexeme.rest))
      ⟨⟨lexeme.kind, String.ofList lexeme.text, String.ofList gap, (start.after gap).column,
        (start.after gap).offset⟩ :: tokens.body, tokens.last⟩

theorem Tokens.scan_laid (start : Position) (text : List Char) :
    Laid start text (scan start text) := by
  have blank (text : List Char) : ∀ c ∈ text.takeWhile Text.isGap, Text.isGap c = true :=
    List.all_eq_true.mp List.all_takeWhile
  fun_induction scan start text with
  | case1 start text gap place empty =>
    have whole : text = gap ++ [] := empty ▸ List.takeWhile_append_dropWhile.symm
    rw [whole, List.append_nil]
    exact .last (blank text)
  | case2 start text gap place c rest behind lexeme token tokens later =>
    have whole : text = gap ++ (c :: rest) := behind ▸ List.takeWhile_append_dropWhile.symm
    rw [whole, ← Lexeme.first_text_append_rest c rest]
    exact .cut (blank text) (Lexeme.first_isLongest c rest) later

theorem byteLength_toList (text : String) : byteLength text.toList = text.utf8ByteSize := by
  suffices ∀ text, byteLength text = (String.ofList text).utf8ByteSize by
    rw [this, String.ofList_toList]
  intro text
  induction text with
  | nil => rfl
  | cons c text ih =>
    have split : String.ofList (c :: text) = String.singleton c ++ String.ofList text := by simp
    rw [byteLength, ih, split, String.utf8ByteSize_append, String.utf8ByteSize_singleton]

theorem append_eq_append_cons {left right before behind : List Char} {c : Char}
    (same : left ++ right = before ++ c :: behind) :
    (∃ more, left = before ++ c :: more ∧ behind = more ++ right) ∨
      ∃ front, before = left ++ front ∧ right = front ++ c :: behind := by
  rcases List.append_eq_append_iff.mp same with ⟨front, split, rest⟩ | ⟨more, split, rest⟩
  · exact .inr ⟨front, split, rest⟩
  · cases more with
    | nil => exact .inr ⟨[], by simpa using split.symm, rest.symm⟩
    | cons d more =>
      cases rest
      exact .inl ⟨more, split, rfl⟩

namespace Laid

variable {start : Position} {text before behind : List Char} {tokens : Tokens}

theorem last_eq (laid : Laid start text tokens) :
    tokens.last.kind = .endOfText ∧ tokens.last.literal = "" ∧
      Position.mk tokens.last.column tokens.last.offset = start.after text := by
  induction laid with
  | last => exact ⟨rfl, rfl, rfl⟩
  | cut blank longest later ih =>
    rw [Position.after_append, Position.after_append] at ih
    exact ih

theorem body_stands (laid : Laid start text tokens) {token : Token} (member : token ∈ tokens.body) :
    ∃ before behind, text = before ++ (token.literal.toList ++ behind) ∧
      Position.mk token.column token.offset = start.after before ∧
      Lexeme.IsLongest ⟨token.kind, token.literal.toList, behind⟩ := by
  induction laid with
  | last => cases member
  | @cut start gap lexeme tokens blank longest later ih =>
    rcases List.mem_cons.mp member with rfl | member
    · refine ⟨gap, lexeme.rest, by rw [String.toList_ofList], rfl, ?_⟩
      rw [String.toList_ofList]
      exact longest
    · obtain ⟨before, behind, rest, place, cut⟩ := ih member
      refine ⟨gap ++ (lexeme.text ++ before), behind, ?_, ?_, cut⟩
      · rw [rest]
        simp only [List.append_assoc]
      · rw [place, Position.after_append, Position.after_append]

theorem body_kind (laid : Laid start text tokens) {token : Token} (member : token ∈ tokens.body) :
    token.kind ≠ .endOfText := by
  obtain ⟨before, behind, -, -, longest⟩ := laid.body_stands member
  intro ends
  have fits := longest.matches_kind (by rw [ends]; exact nofun)
  rw [ends] at fits
  exact fits

theorem isGap_of_outside (laid : Laid start text tokens) {c : Char}
    (stands : text = before ++ c :: behind)
    (outside : ∀ token ∈ tokens.body, (start.after before).offset < token.offset ∨
      token.stop ≤ (start.after before).offset) : Text.isGap c = true := by
  induction laid generalizing before with
  | last blank => exact blank c (by rw [stands]; exact List.mem_append_right _ List.mem_cons_self)
  | @cut start gap lexeme tokens blank longest later ih =>
    rcases append_eq_append_cons stands with ⟨more, within, -⟩ | ⟨front, rfl, behindGap⟩
    · exact blank c (by rw [within]; exact List.mem_append_right _ List.mem_cons_self)
    rcases append_eq_append_cons behindGap with ⟨more, within, -⟩ | ⟨front, rfl, behindToken⟩
    · have far := outside _ List.mem_cons_self
      rw [Token.stop, ← byteLength_toList, String.toList_ofList, within] at far
      have size := Char.utf8Size_pos c
      simp only [Position.after, Position.byteLength_append, byteLength] at far
      omega
    · rw [← Position.after_append, ← Position.after_append] at outside
      exact ih behindToken fun token member => outside token (List.mem_cons_of_mem _ member)

theorem dots (laid : Laid start text tokens) {n : Nat}
    (stands : text = before ++ (List.replicate n '.' ++ behind))
    (starts : '.' ∉ before.getLast?) (stops : '.' ∉ behind.head?) {k : Nat} (within : 3 * k < n) :
    ∃ token ∈ tokens.body, token.offset = (start.after before).offset + 3 * k ∧
      token.literal = String.ofList (List.replicate (min 3 (n - 3 * k)) '.') ∧
      token.kind = if 3 * k + 3 ≤ n then .ellipsis else .illegal := by
  have run {n : Nat} (some : 0 < n) : List.replicate n '.' = '.' :: List.replicate (n - 1) '.' := by
    rw [← List.replicate_succ, Nat.sub_add_cancel some]
  induction laid generalizing before n k with
  | last blank =>
    rw [run (by omega)] at stands
    exact absurd (blank '.' (by rw [stands]; simp)) (by decide)
  | @cut start gap lexeme tokens blank longest later ih =>
    rw [run (by omega)] at stands
    rcases append_eq_append_cons stands with ⟨more, inGap, -⟩ | ⟨front, rfl, behindGap⟩
    · exact absurd (blank '.' (by rw [inGap]; simp)) (by decide)
    rcases append_eq_append_cons behindGap with ⟨more, inToken, -⟩ | ⟨front, rfl, behindToken⟩
    · have startsToken : '.' ∉ front.getLast? := fun last =>
        starts (by simp [List.getLast?_append, Option.mem_def.mp last])
      obtain rfl := longest.dots_first inToken startsToken
      have whole : lexeme.text ++ lexeme.rest = List.replicate n '.' ++ behind := by
        rw [run (by omega)]
        exact behindGap
      obtain ⟨literal, rest, kind⟩ := longest.dots (by omega) whole stops
      rw [List.append_nil]
      cases k with
      | zero => exact ⟨_, List.mem_cons_self, rfl, by rw [literal]; rfl, kind⟩
      | succ k =>
        obtain ⟨token, member, place, text, kind⟩ :=
          ih (show _ = [] ++ _ from rest) nofun (k := k) (by omega)
        have three : min 3 n = 3 := by omega
        have left : n - 3 - 3 * k = n - 3 * (k + 1) := by omega
        have full : 3 * k + 3 ≤ n - 3 ↔ 3 * (k + 1) + 3 ≤ n := by omega
        rw [literal, three] at place
        change token.offset = (start.after gap).offset + 3 + 0 + 3 * k at place
        exact ⟨token, List.mem_cons_of_mem _ member, by omega, by rw [text, left],
          by simpa only [full] using kind⟩
    · have startsRest : '.' ∉ front.getLast? := fun last =>
        starts (by simp [List.getLast?_append, Option.mem_def.mp last])
      rw [← Position.after_append, ← Position.after_append]
      have rest : lexeme.rest = front ++ (List.replicate n '.' ++ behind) := by
        rw [run (by omega)]
        exact behindToken
      obtain ⟨token, member, stands⟩ := ih rest startsRest within
      exact ⟨token, List.mem_cons_of_mem _ member, stands⟩

theorem le_offset (laid : Laid start text tokens) :
    ∀ token ∈ tokens.toList, start.offset ≤ token.offset := by
  intro token member
  have behind : ∃ before, Position.mk token.column token.offset = start.after before := by
    rcases List.mem_append.mp member with body | last
    · obtain ⟨before, -, -, place, -⟩ := laid.body_stands body
      exact ⟨before, place⟩
    · rw [List.mem_singleton.mp last]
      exact ⟨text, laid.last_eq.2.2⟩
  obtain ⟨before, place⟩ := behind
  rw [(Position.mk.inj place).2]
  exact Nat.le_add_right _ _

theorem ordered (laid : Laid start text tokens) :
    tokens.toList.Pairwise fun earlier later => earlier.stop ≤ later.offset := by
  induction laid with
  | last => exact List.pairwise_singleton _ _
  | @cut start gap lexeme tokens blank longest later ih =>
    refine List.Pairwise.cons (fun token member => ?_) ih
    refine Nat.le_trans (Nat.le_of_eq ?_) (later.le_offset token member)
    rw [Token.stop, ← byteLength_toList, String.toList_ofList]
    rfl

end Laid

/-- Of everything that could be cut off there, the token is the longest. -/
structure Token.IsMaximal (token : Token) (behind : String) : Prop where
  kind : token.kind.Matches token.literal.toList ∨ token.kind = .illegal ∧
    token.literal.length = 1 ∧ ∀ kind, ¬ TokenKind.Matches token.literal.toList kind
  longest : ∀ kind text, TokenKind.Matches text kind →
    text <+: token.literal.toList ++ behind.toList → text.length ≤ token.literal.length
  integer : token.kind = .integer → ∀ c ∈ behind.toList.head?, c.isDigit = false
  word : (token.kind = .word ∨ ∃ letter, token.kind = .letter letter) →
    ∀ c ∈ behind.toList.head?, c.isAlpha = false
  less : token.kind = .relation .less → ∀ c ∈ behind.toList.head?, c ≠ '>' ∧ c ≠ '='
  greater : token.kind = .relation .greater → ∀ c ∈ behind.toList.head?, c ≠ '='
  illegal : token.kind = .illegal → token.literal = ".." ∨ token.literal.length = 1

structure Token.StandsBetween (token : Token) (text before behind : String) : Prop where
  whole : text = before ++ token.literal ++ behind
  column : token.column = before.length + 1
  offset : token.offset = before.utf8ByteSize
  stop : token.stop = (before ++ token.literal).utf8ByteSize

/-- The tokens are cut out of the text one behind the other, and only blanks are left over. A run of
dots falls into tokens of three dots, and a rest that is illegal. -/
structure Tokens.Cover (tokens : Tokens) (text : String) : Prop where
  last : tokens.last.kind = .endOfText ∧ tokens.last.literal = "" ∧
    tokens.last.offset = text.utf8ByteSize
  body : ∀ token ∈ tokens.body, token.kind ≠ .endOfText ∧ token.literal ≠ ""
  stands : ∀ token ∈ tokens.toList, ∃ before behind, token.StandsBetween text before behind ∧
    (token.kind ≠ .endOfText → token.IsMaximal behind)
  ordered : tokens.toList.Pairwise fun earlier later => earlier.stop ≤ later.offset
  blank : ∀ before c behind, text.toList = before ++ c :: behind →
    (∀ token ∈ tokens.toList, byteLength before < token.offset ∨ token.stop ≤ byteLength before) →
    c ∈ [' ', '\t', '\n', '\r', '\x0c']
  dots : ∀ before n behind, text.toList = before ++ (List.replicate n '.' ++ behind) →
    '.' ∉ before.getLast? → '.' ∉ behind.head? → ∀ k, 3 * k < n →
      ∃ token ∈ tokens.body, token.offset = byteLength before + 3 * k ∧
        token.literal = String.ofList (List.replicate (min 3 (n - 3 * k)) '.') ∧
        token.kind = if 3 * k + 3 ≤ n then .ellipsis else .illegal

theorem Token.StandsBetween.of_place {token : Token} {text before behind : String}
    (whole : text = before ++ token.literal ++ behind)
    (place : Position.mk token.column token.offset = Position.after {} before.toList) :
    token.StandsBetween text before behind := by
  obtain ⟨column, offset⟩ := Position.mk.inj place
  have bytes : token.offset = before.utf8ByteSize := by
    rw [offset, byteLength_toList]
    exact Nat.zero_add _
  refine ⟨whole, ?_, bytes, ?_⟩
  · rw [column, String.length_toList]
    exact Nat.add_comm _ _
  · rw [Token.stop, bytes, String.utf8ByteSize_append]

theorem Lexeme.IsLongest.isMaximal {token : Token} {behind : String}
    (longest : Lexeme.IsLongest ⟨token.kind, token.literal.toList, behind.toList⟩) :
    token.IsMaximal behind where
  kind := longest.cut
  longest := longest.longest
  integer kind c stands := longest.not_isDigit kind stands
  word kind c stands := longest.not_isAlpha kind stands
  less kind c stands := by
    constructor
    · rintro rfl
      exact longest.not_relation kind stands .notEqual rfl
    · rintro rfl
      exact longest.not_relation kind stands .atMost rfl
  greater kind c stands := by
    rintro rfl
    exact longest.not_relation kind stands .atLeast rfl
  illegal kind := (longest.illegal_text kind).imp_left String.toList_inj.mp

namespace Tokens

theorem cover_ofText (text : String) : (ofText text).Cover text := by
  have laid : Laid {} text.toList (ofText text) := scan_laid {} text.toList
  have place (before : List Char) : (Position.after {} before).offset = byteLength before :=
    Nat.zero_add _
  refine ⟨?last, ?body, ?stands, laid.ordered, ?blank, ?dots⟩
  case last =>
    obtain ⟨kind, literal, stands⟩ := laid.last_eq
    exact ⟨kind, literal, by rw [← byteLength_toList, ← place]; exact (Position.mk.inj stands).2⟩
  case body =>
    intro token member
    obtain ⟨before, behind, -, -, longest⟩ := laid.body_stands member
    exact ⟨laid.body_kind member, fun empty => longest.nonempty (congrArg String.toList empty)⟩
  case stands =>
    intro token member
    rcases List.mem_append.mp member with body | last
    · obtain ⟨before, behind, whole, stands, longest⟩ := laid.body_stands body
      refine ⟨String.ofList before, String.ofList behind, .of_place ?_ ?_, fun _ => ?_⟩
      · rw [← String.toList_inj, whole]
        simp
      · rwa [String.toList_ofList]
      · exact Lexeme.IsLongest.isMaximal (by rwa [String.toList_ofList])
    · obtain ⟨kind, literal, stands⟩ := laid.last_eq
      rw [List.mem_singleton.mp last]
      refine ⟨text, "", .of_place ?_ stands, fun other => absurd kind other⟩
      rw [literal, String.append_empty, String.append_empty]
  case blank =>
    intro before c behind whole outside
    have gap := laid.isGap_of_outside whole fun token member => by
      rw [place]
      exact outside token (List.mem_append_left _ member)
    simpa [Text.isGap, or_assoc] using gap
  case dots =>
    intro before n behind whole starts stops k within
    obtain ⟨token, member, stands, token'⟩ := laid.dots whole starts stops within
    exact ⟨token, member, by rw [stands, place], token'⟩

theorem cover_ofText_dots :
    ∃ token ∈ (ofText "é1....3").body, token.offset = 3 ∧ token.literal = "..." := by
  obtain ⟨token, member, offset, literal, -⟩ :=
    (cover_ofText "é1....3").dots ['é', '1'] 4 ['3'] (by simp) (by decide) (by decide) 0 (by decide)
  exact ⟨token, member, offset, literal⟩

end Tokens

end DiceLanguage
