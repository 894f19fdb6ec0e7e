-- What is written as JSON is read back, whether on one line or indented. This
-- holds of every value without doubles whose integers fit in sixty-four bits
-- and that is nested no deeper than the reader goes: both texts of it have the
-- same lexemes, and these build the value again.
import TurtleScript.Json.Reader
import TurtleScript.Proofs.Json.Scanning

namespace TurtleScript.Json

/-! ## The lexemes of a value -/

mutual
def lexemesOf : Json → List Lexeme
  | .arr [] => [.arrOpen, .arrClose]
  | .arr (item :: items) => .arrOpen :: (lexemesOf item ++ (itemLexemes items ++ [.arrClose]))
  | .obj [] => [.objOpen, .objClose]
  | .obj ((key, value) :: fields) =>
    .objOpen :: .string (some key) :: .colon :: (lexemesOf value ++ (fieldLexemes fields ++ [.objClose]))
  | .str s => [.string (some s)]
  | .null => [.scalar .null]
  | .bool b => [.scalar (.bool b)]
  | .int n => [.scalar (.int n)]
  | .float x => [.scalar (.float x)]
  | .unreadable => [.scalar .unreadable]

def itemLexemes : List Json → List Lexeme
  | [] => []
  | item :: items => .comma :: (lexemesOf item ++ itemLexemes items)

def fieldLexemes : List (String × Json) → List Lexeme
  | [] => []
  | (key, value) :: fields =>
    .comma :: .string (some key) :: .colon :: (lexemesOf value ++ fieldLexemes fields)
end

mutual
/-- A value without doubles whose integers are kept exactly, and all of which has a value. -/
def isPlain : Json → Bool
  | .arr items => arePlain items
  | .obj fields => fieldsPlain fields
  | .int n => decide (FitsWord n)
  | .float _ | .unreadable => false
  | .null | .bool _ | .str _ => true

def arePlain : List Json → Bool
  | [] => true
  | item :: items => isPlain item && arePlain items

def fieldsPlain : List (String × Json) → Bool
  | [] => true
  | (_, value) :: fields => isPlain value && fieldsPlain fields
end

theorem arePlain_iff (items : List Json) : arePlain items = true ↔ ∀ j ∈ items, j.isPlain = true := by
  induction items with
  | nil => simp [arePlain]
  | cons item items ih => simp [arePlain, ih]

/-! ## Layouts -/

/-- How a value is laid out: what stands in front of an item or a closing bracket at a depth, and
what stands after a colon. -/
structure Layout where
  line : Nat → List Char
  colon : List Char

/-- Everything on one line. -/
def Layout.compact : Layout := ⟨fun _ => [], []⟩

/-- Items and fields on lines of their own. -/
def Layout.indented : Layout := ⟨newLine, [' ']⟩

/-- Nothing but white space is put in. -/
structure Layout.Blank (l : Layout) : Prop where
  line : ∀ depth, ∀ c ∈ l.line depth, isGap c = true
  colon : ∀ c ∈ l.colon, isGap c = true

theorem Layout.blank_compact : compact.Blank := ⟨by simp [compact], by simp [compact]⟩

theorem Layout.blank_indented : indented.Blank :=
  ⟨fun _ _ h => isGap_of_mem_newLine h, by simp [indented, isGap]⟩

mutual
def Layout.chars (l : Layout) (depth : Nat) : Json → List Char
  | .arr [] => ['[', ']']
  | .arr (item :: items) =>
    '[' :: (l.line (depth + 1) ++ (l.chars (depth + 1) item ++
      (l.items (depth + 1) items ++ (l.line depth ++ [']']))))
  | .obj [] => ['\x7b', '\x7d']
  | .obj ((key, value) :: fields) =>
    '\x7b' :: (l.line (depth + 1) ++ (quoted key ++ (':' :: (l.colon ++ (l.chars (depth + 1) value ++
      (l.fields (depth + 1) fields ++ (l.line depth ++ ['\x7d'])))))))
  | .null => scalarChars .null
  | .bool b => scalarChars (.bool b)
  | .int n => scalarChars (.int n)
  | .float x => scalarChars (.float x)
  | .str s => scalarChars (.str s)
  | .unreadable => scalarChars .unreadable

def Layout.items (l : Layout) (depth : Nat) : List Json → List Char
  | [] => []
  | item :: items => ',' :: (l.line depth ++ (l.chars depth item ++ l.items depth items))

def Layout.fields (l : Layout) (depth : Nat) : List (String × Json) → List Char
  | [] => []
  | (key, value) :: fields =>
    ',' :: (l.line depth ++ (quoted key ++ (':' :: (l.colon ++ (l.chars depth value ++
      l.fields depth fields)))))
end

mutual
theorem compactChars_eq (depth : Nat) : ∀ j, compactChars j = Layout.compact.chars depth j
  | .arr [] => by simp [compactChars, Layout.chars]
  | .arr (item :: items) => by
    simp [compactChars, Layout.chars, Layout.compact, compactChars_eq (depth + 1) item,
      compactItems_eq (depth + 1) items]
  | .obj [] => by simp [compactChars, Layout.chars]
  | .obj ((key, value) :: fields) => by
    simp [compactChars, Layout.chars, Layout.compact, compactChars_eq (depth + 1) value,
      compactFields_eq (depth + 1) fields]
  | .null | .bool _ | .int _ | .float _ | .str _ | .unreadable => by simp [compactChars, Layout.chars]

theorem compactItems_eq (depth : Nat) : ∀ items, compactItems items = Layout.compact.items depth items
  | [] => by simp [compactItems, Layout.items]
  | item :: items => by
    simp [compactItems, Layout.items, Layout.compact, compactChars_eq depth item,
      compactItems_eq depth items]

theorem compactFields_eq (depth : Nat) :
    ∀ fields, compactFields fields = Layout.compact.fields depth fields
  | [] => by simp [compactFields, Layout.fields]
  | (key, value) :: fields => by
    simp [compactFields, Layout.fields, Layout.compact, compactChars_eq depth value,
      compactFields_eq depth fields]
end

mutual
theorem prettyChars_eq (depth : Nat) : ∀ j, prettyChars depth j = Layout.indented.chars depth j
  | .arr [] => by simp [prettyChars, Layout.chars]
  | .arr (item :: items) => by
    simp [prettyChars, Layout.chars, Layout.indented, prettyChars_eq (depth + 1) item,
      prettyItems_eq (depth + 1) items]
  | .obj [] => by simp [prettyChars, Layout.chars]
  | .obj ((key, value) :: fields) => by
    simp [prettyChars, Layout.chars, Layout.indented, prettyChars_eq (depth + 1) value,
      prettyFields_eq (depth + 1) fields]
  | .null | .bool _ | .int _ | .float _ | .str _ | .unreadable => by simp [prettyChars, Layout.chars]

theorem prettyItems_eq (depth : Nat) :
    ∀ items, prettyItems depth items = Layout.indented.items depth items
  | [] => by simp [prettyItems, Layout.items]
  | item :: items => by
    simp [prettyItems, Layout.items, Layout.indented, prettyChars_eq depth item,
      prettyItems_eq depth items]

theorem prettyFields_eq (depth : Nat) :
    ∀ fields, prettyFields depth fields = Layout.indented.fields depth fields
  | [] => by simp [prettyFields, Layout.fields]
  | (key, value) :: fields => by
    simp [prettyFields, Layout.fields, Layout.indented, prettyChars_eq depth value,
      prettyFields_eq depth fields]
end

/-! ## Reading the text -/

theorem startsFresh_cons {c : Char} (h : endsWord c = true) (cs : List Char) :
    StartsFresh (c :: cs) := by
  intro d hd
  simp only [List.head?_cons, Option.mem_some_iff] at hd
  exact hd ▸ h

theorem startsFresh_gaps {gaps cs : List Char} (hgaps : ∀ c ∈ gaps, isGap c = true)
    (h : StartsFresh cs) : StartsFresh (gaps ++ cs) := by
  cases gaps with
  | nil => exact h
  | cons c gaps =>
    have hc : isGap c = true := hgaps c List.mem_cons_self
    exact startsFresh_cons (by simp [endsWord, hc]) _

section Layout

variable {l : Layout} (hl : l.Blank)

include hl

theorem Layout.Blank.settles_line (depth : Nat) : Settles (l.line depth) [] :=
  settles_gaps (hl.line depth)

theorem Layout.Blank.settles_afterColon : Settles l.colon [] := settles_gaps hl.colon

mutual
theorem Layout.Blank.scans_chars (depth : Nat) :
    ∀ j, j.isPlain = true → Scans (l.chars depth j) (lexemesOf j)
  | .null, _ => by
    rw [Layout.chars]
    exact scans_word (by decide) (by decide) rfl
  | .bool true, _ => by
    rw [Layout.chars]
    exact scans_word (by decide) (by decide) rfl
  | .bool false, _ => by
    rw [Layout.chars]
    exact scans_word (by decide) (by decide) rfl
  | .int n, h => by
    rw [Layout.chars]
    exact scans_intDigits (by simpa [isPlain] using h)
  | .str s, _ => by
    rw [Layout.chars]
    exact (settles_quoted s).scans
  | .arr [], _ => by
    rw [Layout.chars]
    exact settles_arrOpen.append settles_arrClose.scans
  | .arr (item :: items), h => by
    simp only [isPlain, arePlain, Bool.and_eq_true] at h
    have hend : Scans (l.line depth ++ [']']) [.arrClose] :=
      (hl.settles_line depth).append settles_arrClose.scans
    have hfresh : StartsFresh (l.line depth ++ [']']) :=
      startsFresh_gaps (hl.line depth) (startsFresh_cons rfl [])
    obtain ⟨hrest, hrestFresh⟩ := scans_items (depth + 1) items h.2 hend hfresh
    rw [Layout.chars]
    exact settles_arrOpen.cons ((hl.settles_line _).append
      ((scans_chars (depth + 1) item h.1).append hrest hrestFresh))
  | .obj [], _ => by
    rw [Layout.chars]
    exact settles_objOpen.append settles_objClose.scans
  | .obj ((key, value) :: fields), h => by
    simp only [isPlain, fieldsPlain, Bool.and_eq_true] at h
    have hend : Scans (l.line depth ++ ['\x7d']) [.objClose] :=
      (hl.settles_line depth).append settles_objClose.scans
    have hfresh : StartsFresh (l.line depth ++ ['\x7d']) :=
      startsFresh_gaps (hl.line depth) (startsFresh_cons rfl [])
    obtain ⟨hrest, hrestFresh⟩ := scans_fields (depth + 1) fields h.2 hend hfresh
    rw [Layout.chars]
    exact settles_objOpen.cons ((hl.settles_line _).append ((settles_quoted key).append
      (settles_colon.cons (hl.settles_afterColon.append
        ((scans_chars (depth + 1) value h.1).append hrest hrestFresh)))))

theorem Layout.Blank.scans_items (depth : Nat) :
    ∀ items, arePlain items = true → ∀ {tail ms}, Scans tail ms → StartsFresh tail →
      Scans (l.items depth items ++ tail) (itemLexemes items ++ ms) ∧
        StartsFresh (l.items depth items ++ tail)
  | [], _, _, _, htail, hfresh => by
    rw [Layout.items]
    exact ⟨htail, hfresh⟩
  | item :: items, h, tail, ms, htail, hfresh => by
    simp only [arePlain, Bool.and_eq_true] at h
    obtain ⟨hrest, hrestFresh⟩ := scans_items depth items h.2 htail hfresh
    rw [Layout.items]
    refine ⟨?_, startsFresh_cons rfl _⟩
    have hvalue := settles_comma.cons ((hl.settles_line depth).append
      ((scans_chars depth item h.1).append hrest hrestFresh))
    simpa [itemLexemes] using hvalue

theorem Layout.Blank.scans_fields (depth : Nat) :
    ∀ fields, fieldsPlain fields = true → ∀ {tail ms}, Scans tail ms → StartsFresh tail →
      Scans (l.fields depth fields ++ tail) (fieldLexemes fields ++ ms) ∧
        StartsFresh (l.fields depth fields ++ tail)
  | [], _, _, _, htail, hfresh => by
    rw [Layout.fields]
    exact ⟨htail, hfresh⟩
  | (key, value) :: fields, h, tail, ms, htail, hfresh => by
    simp only [fieldsPlain, Bool.and_eq_true] at h
    obtain ⟨hrest, hrestFresh⟩ := scans_fields depth fields h.2 htail hfresh
    rw [Layout.fields]
    refine ⟨?_, startsFresh_cons rfl _⟩
    have hvalue := settles_comma.cons ((hl.settles_line depth).append ((settles_quoted key).append
      (settles_colon.cons (hl.settles_afterColon.append
        ((scans_chars depth value h.1).append hrest hrestFresh)))))
    simpa [fieldLexemes] using hvalue
end

end Layout

/-! ## Building the value -/

/-- What is built when a value with these lexemes begins. -/
def Build.beginAll? (stack : List Frame) : List Lexeme → Option Build
  | [] => none
  | lexeme :: lexemes => (begin? stack lexeme).bind (lexemes.foldlM take? ·)

/-- What reads each written item reads a list of them. -/
theorem mapM_map {α β : Type} {write : α → β} {read? : β → Option α}
    (h : ∀ a, read? (write a) = some a) (as : List α) : (as.map write).mapM read? = some as := by
  induction as with
  | nil => rfl
  | cons a as ih => simp [List.mapM_cons, h, ih]

theorem ofEntries_map (fields : List (String × Json)) :
    ofEntries (fields.map fun field => (some field.1, field.2)) = .obj fields := by
  unfold ofEntries
  rw [mapM_map]
  exact fun _ => rfl

/-- The lexemes of a value never start with the end of an array. -/
theorem foldlM_needsItem (stack : List Frame) (j : Json) (rest : List Lexeme) :
    (lexemesOf j ++ rest).foldlM Build.take? (.needsItem stack) =
      Build.beginAll? (.items [] :: stack) (lexemesOf j ++ rest) := by
  unfold lexemesOf
  split <;> rfl

theorem foldlM_needsValue (stack : List Frame) (j : Json) (rest : List Lexeme) :
    (lexemesOf j ++ rest).foldlM Build.take? (.needsValue stack) =
      Build.beginAll? stack (lexemesOf j ++ rest) := by
  unfold lexemesOf
  split <;> rfl

/-! ## Values that are nested deep -/

mutual
/-- A value as it is read where this many arrays and objects may still be opened: what is nested
deeper cannot be read. -/
def cropped (room : Nat) : Json → Json
  | .arr items => if 0 < room then .arr (croppedItems (room - 1) items) else .unreadable
  | .obj fields => if 0 < room then .obj (croppedFields (room - 1) fields) else .unreadable
  | .null => .null
  | .bool b => .bool b
  | .int n => .int n
  | .float x => .float x
  | .str s => .str s
  | .unreadable => .unreadable

def croppedItems (room : Nat) : List Json → List Json
  | [] => []
  | item :: items => cropped room item :: croppedItems room items

def croppedFields (room : Nat) : List (String × Json) → List (String × Json)
  | [] => []
  | (key, value) :: fields => (key, cropped room value) :: croppedFields room fields
end

mutual
/-- What is not nested too deep is read as it is. -/
theorem cropped_of_depth_le (room : Nat) : ∀ j : Json, j.depth ≤ room → j.cropped room = j
  | .arr items, h => by
    simp only [depth] at h
    rw [cropped, if_pos (by omega), croppedItems_of_depth_le (room - 1) items (by omega)]
  | .obj fields, h => by
    simp only [depth] at h
    rw [cropped, if_pos (by omega), croppedFields_of_depth_le (room - 1) fields (by omega)]
  | .null, _ | .bool _, _ | .int _, _ | .float _, _ | .str _, _ | .unreadable, _ => by
    simp [cropped]

theorem croppedItems_of_depth_le (room : Nat) :
    ∀ items, itemsDepth items ≤ room → croppedItems room items = items
  | [], _ => rfl
  | item :: items, h => by
    simp only [itemsDepth] at h
    rw [croppedItems, cropped_of_depth_le room item (by omega),
      croppedItems_of_depth_le room items (by omega)]

theorem croppedFields_of_depth_le (room : Nat) :
    ∀ fields, fieldsDepth fields ≤ room → croppedFields room fields = fields
  | [], _ => rfl
  | (key, value) :: fields, h => by
    simp only [fieldsDepth] at h
    rw [croppedFields, cropped_of_depth_le room value (by omega),
      croppedFields_of_depth_le room fields (by omega)]
end

mutual
/-- Exactly what is not nested too deep can be read. -/
theorem isReadable_cropped (room : Nat) :
    ∀ j : Json, j.isPlain = true → ((j.cropped room).isReadable = true ↔ j.depth ≤ room)
  | .arr items, h => by
    have hitems := areReadable_cropped (room - 1) items h
    unfold cropped depth
    split
    · rw [isReadable, hitems]
      omega
    · exact ⟨fun hr => (by cases hr), fun hd => (by omega)⟩
  | .obj fields, h => by
    have hfields := fieldsReadable_cropped (room - 1) fields h
    unfold cropped depth
    split
    · rw [isReadable, hfields]
      omega
    · exact ⟨fun hr => (by cases hr), fun hd => (by omega)⟩
  | .null, _ | .bool _, _ | .int _, _ | .str _, _ => by simp [cropped, isReadable, depth]

theorem areReadable_cropped (room : Nat) : ∀ items, arePlain items = true →
    (areReadable (croppedItems room items) = true ↔ itemsDepth items ≤ room)
  | [], _ => by simp [croppedItems, areReadable, itemsDepth]
  | item :: items, h => by
    simp only [arePlain, Bool.and_eq_true] at h
    rw [croppedItems, areReadable, itemsDepth, Bool.and_eq_true, isReadable_cropped room item h.1,
      areReadable_cropped room items h.2, Nat.max_le]

theorem fieldsReadable_cropped (room : Nat) : ∀ fields, fieldsPlain fields = true →
    (fieldsReadable (croppedFields room fields) = true ↔ fieldsDepth fields ≤ room)
  | [], _ => by simp [croppedFields, fieldsReadable, fieldsDepth]
  | (key, value) :: fields, h => by
    simp only [fieldsPlain, Bool.and_eq_true] at h
    rw [croppedFields, fieldsReadable, fieldsDepth, Bool.and_eq_true,
      isReadable_cropped room value h.1, fieldsReadable_cropped room fields h.2, Nat.max_le]
end

theorem whole?_cropped {j : Json} (h : j.isPlain = true) (room : Nat) :
    (j.cropped room).whole? = if j.depth ≤ room then some j else none := by
  unfold whole?
  by_cases hd : j.depth ≤ room
  · rw [if_pos hd, if_pos ((isReadable_cropped room j h).mpr hd), cropped_of_depth_le room j hd]
  · rw [if_neg hd, if_neg (fun hr => hd ((isReadable_cropped room j h).mp hr))]

/-- All of a plain value can be read. -/
theorem whole?_of_isPlain {j : Json} (h : j.isPlain = true) : j.whole? = some j := by
  have hall := whole?_cropped h j.depth
  rwa [cropped_of_depth_le _ j (Nat.le_refl _), if_pos (Nat.le_refl _)] at hall

theorem close_eq (value : Json) (stack : List Frame) :
    Build.close value stack =
      .give (if 0 < maxDepth - stack.length then value else .unreadable) stack := by
  simp only [Build.close, Nat.sub_pos_iff_lt]

mutual
/-- The lexemes of a value build it, but for what is nested too deep. -/
theorem beginAll?_lexemesOf (stack : List Frame) (rest : List Lexeme) :
    ∀ j, j.isPlain = true → Build.beginAll? stack (lexemesOf j ++ rest) =
      rest.foldlM Build.take? (.give (j.cropped (maxDepth - stack.length)) stack)
  | .null, _ | .bool _, _ | .int _, _ | .str _, _ => by
    simp [lexemesOf, Build.beginAll?, Build.begin?, ofString, cropped]
  | .arr [], _ => by
    simp [lexemesOf, Build.beginAll?, Build.begin?, Build.take?, close_eq, cropped, croppedItems]
  | .arr (item :: items), h => by
    simp only [isPlain, arePlain, Bool.and_eq_true] at h
    have hstart : Build.beginAll? stack (lexemesOf (.arr (item :: items)) ++ rest) =
        (lexemesOf item ++ (itemLexemes items ++ .arrClose :: rest)).foldlM Build.take?
          (.needsItem stack) := by
      simp [lexemesOf, Build.beginAll?, Build.begin?]
    rw [hstart, foldlM_needsItem, beginAll?_lexemesOf (.items [] :: stack) _ item h.1]
    refine (foldlM_itemLexemes stack rest items [_] h.2).trans ?_
    rw [close_eq, cropped, Nat.sub_sub]
    rfl
  | .obj [], _ => by
    simp [lexemesOf, Build.beginAll?, Build.begin?, Build.take?, close_eq, ofEntries, cropped,
      croppedFields]
  | .obj ((key, value) :: fields), h => by
    simp only [isPlain, fieldsPlain, Bool.and_eq_true] at h
    have hstart : Build.beginAll? stack (lexemesOf (.obj ((key, value) :: fields)) ++ rest) =
        (lexemesOf value ++ (fieldLexemes fields ++ .objClose :: rest)).foldlM Build.take?
          (.needsValue (.entry [] (some key) :: stack)) := by
      simp [lexemesOf, Build.beginAll?, Build.begin?, Build.take?]
    rw [hstart, foldlM_needsValue, beginAll?_lexemesOf (.entry [] (some key) :: stack) _ value h.1]
    refine (foldlM_fieldLexemes stack rest fields [(key, _)] h.2).trans ?_
    rw [close_eq, cropped, Nat.sub_sub]
    rfl

/-- The lexemes of further items complete the array. -/
theorem foldlM_itemLexemes (stack : List Frame) (rest : List Lexeme) :
    ∀ (items done : List Json), arePlain items = true →
      (itemLexemes items ++ .arrClose :: rest).foldlM Build.take? (.afterItem stack done) =
        rest.foldlM Build.take? (.close (.arr (done.reverse ++
          croppedItems (maxDepth - (stack.length + 1)) items)) stack)
  | [], done, _ => by simp [itemLexemes, Build.take?, croppedItems]
  | item :: items, done, h => by
    simp only [arePlain, Bool.and_eq_true] at h
    have hstart : (itemLexemes (item :: items) ++ .arrClose :: rest).foldlM Build.take?
          (.afterItem stack done) =
        (lexemesOf item ++ (itemLexemes items ++ .arrClose :: rest)).foldlM Build.take?
          (.needsValue (.items done :: stack)) := by
      simp [itemLexemes, Build.take?]
    rw [hstart, foldlM_needsValue, beginAll?_lexemesOf (.items done :: stack) _ item h.1]
    have hrest := foldlM_itemLexemes stack rest items
      (item.cropped (maxDepth - (stack.length + 1)) :: done) h.2
    rw [List.reverse_cons, List.append_assoc] at hrest
    exact hrest

/-- The lexemes of further fields complete the object. -/
theorem foldlM_fieldLexemes (stack : List Frame) (rest : List Lexeme) :
    ∀ (fields done : List (String × Json)), fieldsPlain fields = true →
      (fieldLexemes fields ++ .objClose :: rest).foldlM Build.take?
          (.afterField stack (done.map fun field => (some field.1, field.2))) =
        rest.foldlM Build.take? (.close (.obj (done.reverse ++
          croppedFields (maxDepth - (stack.length + 1)) fields)) stack)
  | [], done, _ => by
    have hentries := ofEntries_map done.reverse
    rw [List.map_reverse] at hentries
    simp [fieldLexemes, Build.take?, hentries, croppedFields]
  | (key, value) :: fields, done, h => by
    simp only [fieldsPlain, Bool.and_eq_true] at h
    have hstart : (fieldLexemes ((key, value) :: fields) ++ .objClose :: rest).foldlM Build.take?
          (.afterField stack (done.map fun field => (some field.1, field.2))) =
        (lexemesOf value ++ (fieldLexemes fields ++ .objClose :: rest)).foldlM Build.take?
          (.needsValue (.entry (done.map fun field => (some field.1, field.2)) (some key) :: stack)) := by
      simp [fieldLexemes, Build.take?]
    rw [hstart, foldlM_needsValue, beginAll?_lexemesOf _ _ value h.1]
    have hrest := foldlM_fieldLexemes stack rest fields
      ((key, value.cropped (maxDepth - (stack.length + 1))) :: done) h.2
    rw [List.reverse_cons, List.append_assoc] at hrest
    exact hrest
end

theorem ofLexemes?_lexemesOf {j : Json} (h : j.isPlain = true) :
    ofLexemes? (lexemesOf j) = some (j.cropped maxDepth) := by
  have hbuild := beginAll?_lexemesOf [] [] j h
  have hvalue := foldlM_needsValue [] j []
  rw [List.append_nil] at hbuild hvalue
  unfold ofLexemes?
  rw [hvalue, hbuild]
  rfl

/-! ## The laws -/

/-- Of the text of a plain value on one line all is read that is not nested too deep. -/
theorem parse?_compact_cropped {j : Json} (h : j.isPlain = true) :
    parse? j.compact = some (j.cropped maxDepth) := by
  unfold parse? compact
  rw [String.toList_ofList, compactChars_eq 0,
    lexemes?_of_scans (Layout.blank_compact.scans_chars 0 j h), Option.bind_some,
    ofLexemes?_lexemesOf h]

/-- A plain value is read back from its text on one line. -/
theorem parse?_compact {j : Json} (h : j.isPlain = true) (hd : j.depth ≤ maxDepth) :
    parse? j.compact = some j := by
  rw [parse?_compact_cropped h, cropped_of_depth_le maxDepth j hd]

/-- A plain value is read back from its indented text. -/
theorem parse?_pretty {j : Json} (h : j.isPlain = true) (hd : j.depth ≤ maxDepth) :
    parse? j.pretty = some j := by
  unfold parse? pretty
  rw [String.toList_ofList, prettyChars_eq 0,
    lexemes?_of_scans (Layout.blank_indented.scans_chars 0 j h), Option.bind_some,
    ofLexemes?_lexemesOf h, cropped_of_depth_le maxDepth j hd]

end TurtleScript.Json
