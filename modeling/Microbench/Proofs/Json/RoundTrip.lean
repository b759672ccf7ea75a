import Microbench.Proofs.Json.Scan

/-!
# Reading what was written

A document whose leaves could have been read is what its own text reads as. The text is cut into
the tokens of the document, level by level, and the machine puts the tokens back together: where it
expects a value, the tokens of a value leave it with that value and the same open containers.

Results:

* `tokens?_pretty`: the tokens of a written document.
* `step_tokens`: what the machine makes of the tokens of a value.
* `parse_pretty`: a document is read from its own text.
-/
namespace Microbench.Json

mutual

/-- Every leaf is one that could have been read. -/
def Sound : Json → Prop
  | .null => True
  | .bool _ => True
  | .number lexeme => IsNumber lexeme
  | .string quoted => IsString quoted
  | .array items => SoundItems items
  | .object members => SoundMembers members

def SoundItems : List Json → Prop
  | [] => True
  | item :: items => Sound item ∧ SoundItems items

def SoundMembers : List (String × Json) → Prop
  | [] => True
  | (key, value) :: members => IsString key ∧ Sound value ∧ SoundMembers members

end

theorem soundItems_iff {items : List Json} : SoundItems items ↔ ∀ item ∈ items, Sound item := by
  induction items with
  | nil => simp [SoundItems]
  | cons item items ih => simp [SoundItems, ih]

/-! ## The tokens of a document -/

mutual

def tokens : Json → List Token
  | .array items => .openArray :: itemTokens items
  | .object members => .openObject :: memberTokens members
  | leaf => [.leaf leaf]

/-- Up to the end of an array that was just opened. -/
def itemTokens : List Json → List Token
  | [] => [.closeArray]
  | item :: items => tokens item ++ moreItems items

/-- Up to the end of an array, behind one of its items. -/
def moreItems : List Json → List Token
  | [] => [.closeArray]
  | item :: items => .comma :: tokens item ++ moreItems items

def memberTokens : List (String × Json) → List Token
  | [] => [.closeObject]
  | (key, value) :: members =>
    .leaf (.string key) :: .colon :: tokens value ++ moreMembers members

def moreMembers : List (String × Json) → List Token
  | [] => [.closeObject]
  | (key, value) :: members =>
    .comma :: .leaf (.string key) :: .colon :: tokens value ++ moreMembers members

end

/-! ## The machine -/

mutual

/-- Where a value is expected, its tokens leave the value. -/
theorem step_tokens (stack : List Frame) (orClose : Bool) : (j : Json) →
    (tokens j).foldlM Reading.step ⟨stack, .value orClose⟩ = some ⟨stack, .after j⟩
  | .null => rfl
  | .bool _ => rfl
  | .number _ => rfl
  | .string _ => rfl
  | .array [] => rfl
  | .array (item :: items) => by
    show (tokens item ++ moreItems items).foldlM Reading.step ⟨.items [] :: stack, .value true⟩ = _
    rw [List.foldlM_append, step_tokens (.items [] :: stack) true item]
    exact step_moreItems stack [] item items
  | .object [] => rfl
  | .object ((key, value) :: members) => by
    show (tokens value ++ moreMembers members).foldlM Reading.step
      ⟨.members [] key :: stack, .value false⟩ = _
    rw [List.foldlM_append, step_tokens (.members [] key :: stack) false value]
    exact step_moreMembers stack [] key value members

/-- Behind an item, the tokens of the others leave the array. -/
theorem step_moreItems (stack : List Frame) (done : List Json) (last : Json) :
    (items : List Json) →
    (moreItems items).foldlM Reading.step ⟨.items done :: stack, .after last⟩
      = some ⟨stack, .after (.array (done.reverse ++ last :: items))⟩
  | [] => by
    rw [List.append_cons, List.append_nil, ← List.reverse_cons]
    rfl
  | item :: items => by
    show (tokens item ++ moreItems items).foldlM Reading.step
      ⟨.items (last :: done) :: stack, .value false⟩ = _
    rw [List.foldlM_append, step_tokens (.items (last :: done) :: stack) false item,
      List.append_cons, ← List.reverse_cons]
    exact step_moreItems stack (last :: done) item items

theorem step_moreMembers (stack : List Frame) (done : List (String × Json)) (key : String)
    (last : Json) : (members : List (String × Json)) →
    (moreMembers members).foldlM Reading.step ⟨.members done key :: stack, .after last⟩
      = some ⟨stack, .after (.object (done.reverse ++ (key, last) :: members))⟩
  | [] => by
    rw [List.append_cons, List.append_nil, ← List.reverse_cons]
    rfl
  | (key', value) :: members => by
    show (tokens value ++ moreMembers members).foldlM Reading.step
      ⟨.members ((key, last) :: done) key' :: stack, .value false⟩ = _
    rw [List.foldlM_append, step_tokens (.members ((key, last) :: done) key' :: stack) false value,
      List.append_cons, ← List.reverse_cons]
    exact step_moreMembers stack ((key, last) :: done) key' value members

end

theorem ofTokens_tokens (j : Json) : ofTokens (tokens j) = some j := by
  rw [ofTokens, step_tokens [] false j]
  rfl

/-! ## The text -/

section Text

theorem tokens?_blank {c : Char} (h : isBlank c = true) (cs : List Char) :
    tokens? (c :: cs) = tokens? cs := by
  rw [tokens?, if_pos h]

theorem tokens?_blanks {blanks : List Char} (h : ∀ c ∈ blanks, isBlank c = true)
    (cs : List Char) : tokens? (blanks ++ cs) = tokens? cs := by
  induction blanks with
  | nil => rfl
  | cons c blanks ih =>
    obtain ⟨here, rest⟩ := List.forall_mem_cons.1 h
    rw [List.cons_append, tokens?_blank here, ih rest]

theorem tokens?_token {c : Char} {cs after : List Char} (token : Token) (h : isBlank c = false)
    (scanned : scanToken (c :: cs) = some (token, after)) (shorter : after.length ≤ cs.length) :
    tokens? (c :: cs) = (tokens? after).map (token :: ·) := by
  rw [tokens?, if_neg (by simp [h]), scanned]
  exact dif_pos (Nat.lt_succ_of_le shorter)

/-- The text is read as these tokens, whatever follows it that no number goes on with. -/
def Reads (text : List Char) (read : List Token) : Prop :=
  ∀ rest, Stops rest → tokens? (text ++ rest) = (tokens? rest).map (read ++ ·)

theorem tokens?_quoted {s : String} (h : IsString s) (rest : List Char) :
    tokens? ((quoted s).toList ++ rest) = (tokens? rest).map (.leaf (.string s) :: ·) := by
  have scanned : scanToken ('"' :: (s.toList ++ '"' :: rest))
      = some (.leaf (.string s), rest) := by
    show (scanString (s.toList ++ '"' :: rest)).map _ = _
    rw [h.scan]
    exact congrArg (fun s => some (Token.leaf (.string s), rest)) String.ofList_toList
  have text : (quoted s).toList ++ rest = '"' :: (s.toList ++ '"' :: rest) := by simp [quoted]
  rw [text]
  exact tokens?_token _ rfl scanned (by simp only [List.length_append, List.length_cons]; omega)

theorem scanToken_number {c : Char} (h : c = '-' ∨ c.isDigit = true) (cs : List Char) :
    scanToken (c :: cs)
      = (scanNumber (c :: cs)).map fun (s, rest) => (.leaf (.number (String.ofList s)), rest) := by
  unfold scanToken
  split
  case h_11 => rfl
  all_goals next same => cases same; exact absurd h (by decide)

theorem isBlank_of_first {c : Char} (h : c = '-' ∨ c.isDigit = true) : isBlank c = false := by
  by_contra blank
  simp only [isBlank, Bool.not_eq_false, Bool.or_eq_true, beq_iff_eq] at blank
  rcases blank with ((rfl | rfl) | rfl) | rfl <;> exact absurd h (by decide)

theorem reads_number {lexeme : String} (h : IsNumber lexeme) :
    Reads lexeme.toList [.leaf (.number lexeme)] := by
  intro rest stops
  obtain ⟨c, cs, same, first⟩ := h.first
  have scanned : scanToken (c :: (cs ++ rest)) = some (.leaf (.number lexeme), rest) := by
    rw [scanToken_number first, ← List.cons_append, ← same, h.scan stops]
    exact congrArg (fun s => some (Token.leaf (.number s), rest)) String.ofList_toList
  rw [same, List.cons_append]
  exact tokens?_token _ (isBlank_of_first first) scanned
    (by rw [List.length_append]; exact Nat.le_add_left ..)

theorem newline_blank (level : Nat) : ∀ c ∈ (newline level).toList, isBlank c = true := by
  intro c hc
  simp only [newline, String.toList_append, String.toList_ofList, List.mem_append] at hc
  rcases hc with first | blank
  · obtain rfl := List.mem_singleton.1 first
    rfl
  · obtain rfl := List.eq_of_mem_replicate blank
    rfl

theorem newline_eq (level : Nat) : ∃ blanks, (newline level).toList = '\n' :: blanks :=
  ⟨_, by rw [newline, String.toList_append]; rfl⟩

/-- A part behind a comma, on a line of its own. -/
def behind (level : Nat) (part : String) : List Char := ',' :: (newline level).toList ++ part.toList

theorem block_nil (opening closing : String) (level : Nat) :
    (block opening closing level []).toList = opening.toList ++ closing.toList :=
  String.toList_append

theorem block_cons (opening closing : String) (level : Nat) (part : String)
    (parts : List String) :
    (block opening closing level (part :: parts)).toList
      = opening.toList ++ (newline (level + 1)).toList ++ part.toList
        ++ parts.flatMap (behind (level + 1)) ++ (newline level).toList ++ closing.toList := by
  have parts (part : String) : (String.intercalate "," ((part :: parts).map
      (newline (level + 1) ++ ·))).toList
        = (newline (level + 1)).toList ++ part.toList ++ parts.flatMap (behind (level + 1)) := by
    induction parts generalizing part with
    | nil => simp
    | cons next parts ih =>
      rw [List.map_cons, List.map_cons, String.intercalate_cons_cons, ← List.map_cons,
        String.toList_append, ih next]
      simp [behind]
  show (opening ++ String.intercalate "," _ ++ newline level ++ closing).toList = _
  rw [String.toList_append, String.toList_append, String.toList_append, parts]
  simp only [List.append_assoc]

/-- What stands behind an item: a comma or a line break. -/
theorem stops_behind (level : Nat) (parts : List String) (rest : List Char) :
    Stops (parts.flatMap (behind (level + 1)) ++ ((newline level).toList ++ rest)) := by
  cases parts with
  | nil =>
    obtain ⟨blanks, same⟩ := newline_eq level
    rw [List.flatMap_nil, List.nil_append, same]
    exact stops_cons (by decide) _
  | cons part parts => exact stops_cons (by decide) _

theorem tokens?_closing {c : Char} {token : Token} (level : Nat) (rest : List Char)
    (h : isBlank c = false) (scanned : scanToken (c :: rest) = some (token, rest)) :
    tokens? ((newline level).toList ++ c :: rest) = (tokens? rest).map (token :: ·) := by
  rw [tokens?_blanks (newline_blank level)]
  exact tokens?_token _ h scanned (Nat.le_refl _)

theorem tokens?_comma (level : Nat) (part : String) (rest : List Char) :
    tokens? (behind level part ++ rest)
      = (tokens? (part.toList ++ rest)).map (.comma :: ·) := by
  show tokens? (',' :: ((newline level).toList ++ part.toList ++ rest)) = _
  rw [tokens?_token .comma rfl rfl (Nat.le_refl _), List.append_assoc,
    tokens?_blanks (newline_blank level)]

theorem reads_literal {c : Char} {cs : List Char} {leaf : Json} (h : isBlank c = false)
    (scanned : ∀ rest, scanToken (c :: cs ++ rest) = some (.leaf leaf, rest)) :
    Reads (c :: cs) [.leaf leaf] := fun rest _ =>
  tokens?_token _ h (scanned rest) (by simp only [List.append_eq, List.length_append]; omega)

mutual

theorem reads_value (level : Nat) : (j : Json) → Sound j →
    Reads (prettyAt level j).toList (tokens j)
  | .null, _ => by
    have text : (prettyAt level .null).toList = ['n', 'u', 'l', 'l'] := by simp [prettyAt]
    rw [text]
    exact reads_literal rfl fun _ => rfl
  | .bool true, _ => by
    have text : (prettyAt level (.bool true)).toList = ['t', 'r', 'u', 'e'] := by
      simp [prettyAt, toString]
    rw [text]
    exact reads_literal rfl fun _ => rfl
  | .bool false, _ => by
    have text : (prettyAt level (.bool false)).toList = ['f', 'a', 'l', 's', 'e'] := by
      simp [prettyAt, toString]
    rw [text]
    exact reads_literal rfl fun _ => rfl
  | .number lexeme, h => reads_number h
  | .string _, h => fun rest _ => tokens?_quoted h rest
  | .array [], _ => by
    intro rest _
    show tokens? ((block "[" "]" level []).toList ++ rest) = _
    rw [block_nil]
    show tokens? ('[' :: ']' :: rest) = _
    rw [tokens?_token .openArray rfl rfl (Nat.le_refl _),
      tokens?_token .closeArray rfl rfl (Nat.le_refl _), Option.map_map]
    rfl
  | .array (item :: items), h => by
    intro rest _
    have text : (prettyAt level (.array (item :: items))).toList ++ rest
        = '[' :: ((newline (level + 1)).toList ++ ((prettyAt (level + 1) item).toList
          ++ ((prettyItems (level + 1) items).flatMap (behind (level + 1))
            ++ ((newline level).toList ++ ']' :: rest)))) := by
      show (block "[" "]" level (prettyAt (level + 1) item :: prettyItems (level + 1) items)).toList
        ++ rest = _
      rw [block_cons]
      simp only [List.append_assoc]
      rfl
    rw [text, tokens?_token .openArray rfl rfl (Nat.le_refl _),
      tokens?_blanks (newline_blank (level + 1)),
      reads_value (level + 1) item h.1 _ (stops_behind level _ _),
      tokens?_moreItems level rest items h.2]
    cases tokens? rest <;> simp [tokens, itemTokens]
  | .object [], _ => by
    intro rest _
    show tokens? ((block "\x7b" "\x7d" level []).toList ++ rest) = _
    rw [block_nil]
    show tokens? ('\x7b' :: '\x7d' :: rest) = _
    rw [tokens?_token .openObject rfl rfl (Nat.le_refl _),
      tokens?_token .closeObject rfl rfl (Nat.le_refl _), Option.map_map]
    rfl
  | .object ((key, value) :: members), h => by
    intro rest _
    have text : (prettyAt level (.object ((key, value) :: members))).toList ++ rest
        = '\x7b' :: ((newline (level + 1)).toList ++ ((quoted key).toList
          ++ (':' :: ' ' :: ((prettyAt (level + 1) value).toList
          ++ ((prettyMembers (level + 1) members).flatMap (behind (level + 1))
            ++ ((newline level).toList ++ '\x7d' :: rest)))))) := by
      show (block "\x7b" "\x7d" level ((quoted key ++ ": " ++ prettyAt (level + 1) value)
        :: prettyMembers (level + 1) members)).toList ++ rest = _
      rw [block_cons]
      simp only [String.toList_append, List.append_assoc]
      rfl
    rw [text, tokens?_token .openObject rfl rfl (Nat.le_refl _),
      tokens?_blanks (newline_blank (level + 1)), tokens?_quoted h.1,
      tokens?_token .colon rfl rfl (Nat.le_refl _), tokens?_blank rfl,
      reads_value (level + 1) value h.2.1 _ (stops_behind level _ _),
      tokens?_moreMembers level rest members h.2.2]
    cases tokens? rest <;> simp [tokens, memberTokens]

/-- The other items and the end of the array. -/
theorem tokens?_moreItems (level : Nat) (rest : List Char) : (items : List Json) →
    SoundItems items →
    tokens? ((prettyItems (level + 1) items).flatMap (behind (level + 1))
        ++ ((newline level).toList ++ ']' :: rest))
      = (tokens? rest).map (moreItems items ++ ·)
  | [], _ => tokens?_closing level rest rfl rfl
  | item :: items, h => by
    rw [prettyItems, List.flatMap_cons, List.append_assoc, tokens?_comma,
      reads_value (level + 1) item h.1 _ (stops_behind level _ _),
      tokens?_moreItems level rest items h.2]
    cases tokens? rest <;> simp [moreItems]

theorem tokens?_moreMembers (level : Nat) (rest : List Char) :
    (members : List (String × Json)) → SoundMembers members →
    tokens? ((prettyMembers (level + 1) members).flatMap (behind (level + 1))
        ++ ((newline level).toList ++ '\x7d' :: rest))
      = (tokens? rest).map (moreMembers members ++ ·)
  | [], _ => tokens?_closing level rest rfl rfl
  | (key, value) :: members, h => by
    rw [prettyMembers, List.flatMap_cons, List.append_assoc, tokens?_comma, String.toList_append,
      String.toList_append, List.append_assoc, List.append_assoc, tokens?_quoted h.1]
    show (((tokens? (':' :: ' ' :: ((prettyAt (level + 1) value).toList ++ _))).map _).map _) = _
    rw [tokens?_token .colon rfl rfl (Nat.le_refl _), tokens?_blank rfl,
      reads_value (level + 1) value h.2.1 _ (stops_behind level _ _),
      tokens?_moreMembers level rest members h.2.2]
    cases tokens? rest <;> simp [moreMembers]

end

/-- A written document is cut into its tokens. -/
theorem tokens?_pretty {j : Json} (h : Sound j) : tokens? (pretty j).toList = some (tokens j) := by
  have read := reads_value 0 j h [] stops_nil
  rw [List.append_nil, tokens?, Option.map_some, List.append_nil] at read
  exact read

end Text

/-- A document is read from its own text. -/
theorem parse_pretty {j : Json} (h : Sound j) : parse (pretty j) = some j := by
  rw [parse, tokens?_pretty h]
  exact ofTokens_tokens j

/-- The text determines the document. -/
theorem pretty_injective {j j' : Json} (h : Sound j) (h' : Sound j') (same : pretty j = pretty j') :
    j = j' :=
  Option.some.inj ((parse_pretty h).symm.trans (same ▸ parse_pretty h'))

end Microbench.Json
