import BlockFeed.Json.Parser

/-!
# What is printed as JSON is read back

A value whose numbers are whole is read back from the text it is printed as (`parse?_render`). A printed
string is read character by character, each as it was escaped; a printed number ends where its digits do,
because a comma, a bracket or the end of the text follows.

Every character of the text is worth one unit of fuel to the reader, so that the length of what is left
bounds the recursion.
-/

namespace BlockFeed.Json

/-! ## Numbers -/

/-- What follows a value does not go on with a number. -/
def Ends (rest : List Char) : Prop :=
  ∀ c more, rest = c :: more → Numeral.isDigit c = false ∧ c ≠ '.' ∧ c ≠ 'e' ∧ c ≠ 'E'

theorem ends_nil : Ends [] := by
  intro c more h
  cases h

theorem ends_cons {c : Char} {rest : List Char}
    (h : Numeral.isDigit c = false ∧ c ≠ '.' ∧ c ≠ 'e' ∧ c ≠ 'E') : Ends (c :: rest) := by
  intro c' more h'
  cases h'
  exact h

theorem takeWhile_isDigit {ds rest : List Char} (hds : ∀ c ∈ ds, Numeral.isDigit c = true)
    (hrest : Ends rest) : digits (ds ++ rest) = (ds, rest) := by
  have htake : rest.takeWhile Numeral.isDigit = [] := by
    cases rest with
    | nil => rfl
    | cons c more => rw [List.takeWhile_cons, (hrest c more rfl).1]; rfl
  have hdrop : rest.dropWhile Numeral.isDigit = rest := by
    cases rest with
    | nil => rfl
    | cons c more => rw [List.dropWhile_cons, (hrest c more rfl).1]; rfl
  rw [digits, List.takeWhile_append_of_pos hds, List.dropWhile_append_of_pos hds, htake, hdrop,
    List.append_nil]

/-- A number begins with a digit. -/
theorem exists_digits_cons (n : Nat) :
    ∃ d ds, Numeral.digits n = d :: ds ∧ Numeral.isDigit d = true := by
  cases hds : Numeral.digits n with
  | nil => exact absurd hds (Numeral.digits_ne_nil n)
  | cons d ds =>
    refine ⟨d, ds, rfl, Numeral.isDigit_of_mem_digits (n := n) ?_⟩
    simp [hds]

/-- So it begins with nothing else. -/
theorem digits_append_ne_cons {c : Char} (hc : Numeral.isDigit c = false) (n : Nat)
    (rest more : List Char) : Numeral.digits n ++ rest ≠ c :: more := by
  intro heq
  obtain ⟨d, ds, hds, hdigit⟩ := exists_digits_cons n
  rw [hds, List.cons_append] at heq
  injection heq with hhead _
  rw [hhead, hc] at hdigit
  cases hdigit

/-- A positive number is not written with a leading zero. -/
theorem digits_ne_zero_cons {n : Nat} (hn : 0 < n) (ds : List Char) :
    Numeral.digits n ≠ '0' :: ds := by
  induction n using Nat.strongRecOn generalizing ds with
  | ind n ih =>
    intro h
    rw [Numeral.digits, Nat.toDigits_eq_if (by decide)] at h
    split at h
    · rename_i hlt
      have hall : ∀ d : Fin 10, 0 < d.val → Nat.digitChar d ≠ '0' := by decide
      injection h with hhead _
      exact hall ⟨n, hlt⟩ hn hhead
    · rename_i hge
      cases hfront : Nat.toDigits 10 (n / 10) with
      | nil => exact Nat.toDigits_ne_nil hfront
      | cons d more =>
        rw [hfront, List.cons_append] at h
        injection h with hhead _
        rw [hhead] at hfront
        exact ih (n / 10) (by omega) (by omega) more hfront

/-- Only the number zero is written with a leading zero. -/
theorem digits_head_zero {n : Nat} {ds : List Char} (h : Numeral.digits n = '0' :: ds) : ds = [] := by
  cases n with
  | zero =>
    injection (h : ['0'] = '0' :: ds) with _ htail
    exact htail.symm
  | succ n => exact absurd h (digits_ne_zero_cons (Nat.succ_pos n) ds)

theorem wholePart?_digits (n : Nat) {rest : List Char} (hrest : Ends rest) :
    wholePart? (Numeral.digits n ++ rest) = some (Numeral.digits n, rest) := by
  unfold wholePart?
  split
  · rename_i more heq
    obtain ⟨d, ds, hds, -⟩ := exists_digits_cons n
    rw [hds, List.cons_append] at heq
    injection heq with hhead htail
    subst hhead
    obtain rfl := digits_head_zero hds
    subst htail
    rw [hds]
    cases rest with
    | nil => rfl
    | cons c more => simp [(hrest c more rfl).1]
  · rw [takeWhile_isDigit (fun c hc => Numeral.isDigit_of_mem_digits hc) hrest]
    simp [Numeral.digits_ne_nil]

theorem number?_digits (n : Nat) {rest : List Char} (hrest : Ends rest) :
    number? (Numeral.digits n ++ rest) = some (Numeral.ofNat n, rest) := by
  have hfraction : fraction? rest = some ([], rest) := by
    unfold fraction?
    split
    · exact absurd rfl (hrest _ _ rfl).2.1
    · rfl
  have hexponent : exponent? rest = some ([], rest) := by
    unfold exponent?
    split
    · exact absurd rfl (hrest _ _ rfl).2.2.1
    · exact absurd rfl (hrest _ _ rfl).2.2.2
    · rfl
  unfold number?
  split
  rename_i sign cs hsplit
  split at hsplit
  · rename_i hsign
    exact absurd hsign (digits_append_ne_cons rfl n rest _)
  · cases hsplit
    simp [wholePart?_digits n hrest, hfraction, hexponent, Numeral.ofNat]

/-! ## Strings -/

/-- The four digits of a control character are read back. -/
theorem code?_hex4 {n : Nat} (h : n < 32) (rest : List Char) :
    code? (hex4 n ++ rest) = some (n, rest) := by
  have hall : ∀ v : Fin 32, Numeral.inBase? 16 (hex4 v) = some v.val := by decide
  show (Numeral.inBase? 16 (hex4 n)).map (·, rest) = some (n, rest)
  rw [hall ⟨n, h⟩]
  rfl

/-- A character is read back as it was escaped. -/
theorem stringBody?_escape (c : Char) (b : Char) (bound rest : List Char) :
    stringBody? (b :: bound) (escape c ++ rest)
      = (stringBody? bound rest).map fun read => (some c :: read.1, read.2) := by
  unfold escape
  split
  · subst_vars
    rfl
  split
  · subst_vars
    rfl
  split
  · subst_vars
    rfl
  split
  · subst_vars
    rfl
  split
  · subst_vars
    rfl
  split
  · subst_vars
    rfl
  split
  · subst_vars
    rfl
  split
  · rename_i hcontrol
    rw [List.append_assoc]
    simp only [List.cons_append, List.nil_append, stringBody?, code?_hex4 hcontrol]
    have hlow : ¬ 55296 ≤ c.toNat := by omega
    have hhigh : ¬ 56320 ≤ c.toNat := by omega
    simp [hlow, hhigh, Char.ofNat_toNat]
  · rename_i hquote hbackslash _ _ _ _ _ hplain
    rw [List.singleton_append, stringBody?.eq_def]
    simp only
    split
    case h_13 =>
      rename_i heq
      cases heq
      exact if_neg hplain
    -- any other form begins with a character that has been ruled out
    all_goals simp_all

theorem stringBody?_flatMap_escape {text : List Char} {bound : List Char}
    (hbound : text.length < bound.length) (rest : List Char) :
    stringBody? bound (text.flatMap escape ++ '"' :: rest) = some (text.map some, rest) := by
  induction text generalizing bound with
  | nil =>
    cases bound with
    | nil => cases hbound
    | cons b bound => rfl
  | cons c text ih =>
    cases bound with
    | nil => cases hbound
    | cons b bound =>
      rw [List.flatMap_cons, List.append_assoc, stringBody?_escape,
        ih (by simpa using hbound)]
      rfl

/-- A character is escaped by one character at least. -/
theorem length_le_length_escape (text : List Char) :
    text.length ≤ (text.flatMap escape).length := by
  induction text with
  | nil => exact Nat.le_refl _
  | cons c text ih =>
    have hone : 1 ≤ (escape c).length := by
      unfold escape
      repeat (split <;> try simp)
    rw [List.flatMap_cons, List.length_append, List.length_cons]
    omega

/-- The characters of a printed string after its opening quotation mark. -/
def quoteTail (text : String) : List Char := text.toList.flatMap escape ++ ['"']

theorem toList_quote (text : String) : (quote text).toList = '"' :: quoteTail text := by
  simp [quote, quoteTail]

theorem stringBody?_quoteTail (text : String) (rest : List Char) :
    stringBody? (quoteTail text ++ rest) (quoteTail text ++ rest)
      = some (text.toList.map some, rest) := by
  have hlength := length_le_length_escape text.toList
  have hbound : text.toList.length < (quoteTail text ++ rest).length := by
    rw [quoteTail, List.length_append, List.length_append, List.length_singleton]
    omega
  have htail : quoteTail text ++ rest = text.toList.flatMap escape ++ '"' :: rest := by
    rw [quoteTail, List.append_assoc, List.singleton_append]
  rw [htail] at hbound ⊢
  exact stringBody?_flatMap_escape hbound rest

theorem string?_quoteTail (text : String) (rest : List Char) :
    string? (quoteTail text ++ rest) = some (text, rest) := by
  rw [string?, stringBody?_quoteTail]
  simp [Function.comp_def]

theorem key?_quoteTail (text : String) (rest : List Char) :
    key? (quoteTail text ++ rest) = some (some text, rest) := by
  have hall : ∀ cs : List Char, (cs.map some).mapM id = some cs := by
    intro cs
    induction cs with
    | nil => rfl
    | cons c cs ih => simp [ih]
  rw [key?, stringBody?_quoteTail, Option.map_some]
  simp only [hall, Option.map_some, String.ofList_toList]

/-! ## Values -/

mutual

/-- A value whose numbers are whole and whose keys are texts. -/
def IsWhole : Json → Prop
  | .number literal => ∃ n, literal = Numeral.ofNat n
  | .array items => AreWhole items
  | .object fields => HaveWhole fields
  | .unreadable => False
  | _ => True

/-- Items all of which are such values. -/
def AreWhole : List Json → Prop
  | [] => True
  | item :: rest => IsWhole item ∧ AreWhole rest

/-- Fields all of whose values are such values. -/
def HaveWhole : List (String × Json) → Prop
  | [] => True
  | (_, value) :: rest => IsWhole value ∧ HaveWhole rest

end

theorem ofFields_map (fields : List (String × Json)) :
    ofFields (fields.map fun field => (some field.1, field.2)) = .object fields := by
  have hall : (fields.map fun field => (some field.1, field.2)).mapM
      (fun field : Option String × Json => field.1.map (·, field.2)) = some fields := by
    induction fields with
    | nil => rfl
    | cons field rest ih => simp_all
  unfold ofFields
  split
  · rename_i found hfound
    rw [Option.some.inj (hfound.symm.trans hall)]
  · rename_i hnone
    cases hnone.symm.trans hall

/-- The first character of a printed value: it is no white space, and no closing bracket. -/
def IsFirst (c : Char) : Prop := isSpace c = false ∧ c ≠ ']'

theorem isFirst_of_isDigit {c : Char} (h : Numeral.isDigit c = true) : IsFirst c := by
  refine ⟨?_, ?_⟩
  · by_cases hspace : isSpace c = true
    · simp only [isSpace, Bool.or_eq_true, decide_eq_true_eq] at hspace
      rcases hspace with ((rfl | rfl) | rfl) | rfl <;> cases h
    · simpa using hspace
  · rintro rfl
    cases h

theorem render_cons {j : Json} (hj : IsWhole j) :
    ∃ c more, j.render.toList = c :: more ∧ IsFirst c := by
  cases j with
  | null => exact ⟨'n', _, rfl, by decide, by decide⟩
  | bool value =>
    cases value with
    | true => exact ⟨'t', _, rfl, by decide, by decide⟩
    | false => exact ⟨'f', _, rfl, by decide, by decide⟩
  | number literal =>
    obtain ⟨n, rfl⟩ := hj
    obtain ⟨d, ds, hds, hdigit⟩ := exists_digits_cons n
    refine ⟨d, ds, ?_, isFirst_of_isDigit hdigit⟩
    simp [render, Numeral.ofNat, hds]
  | string text => exact ⟨'"', _, toList_quote text, by decide, by decide⟩
  | array items =>
    cases items with
    | nil => exact ⟨'[', _, rfl, by decide, by decide⟩
    | cons item rest =>
      exact ⟨'[', (item.render ++ renderItems rest).toList, by simp [render], by decide, by decide⟩
  | object fields =>
    cases fields with
    | nil => exact ⟨'\x7b', _, rfl, by decide, by decide⟩
    | cons field rest =>
      exact ⟨'\x7b', (quote field.1 ++ ":" ++ field.2.render ++ renderFields rest).toList,
        by simp [render], by decide, by decide⟩
  | unreadable => exact hj.elim

theorem skipSpace_cons {c : Char} (h : isSpace c = false) (rest : List Char) :
    skipSpace (c :: rest) = c :: rest := by
  rw [skipSpace, List.dropWhile_cons, h]
  rfl

/-- The items of an array without its brackets. -/
def itemsText : List Json → List Char
  | [] => []
  | item :: rest => item.render.toList ++ (renderItems rest).toList

/-- The fields of an object without its opening brace. -/
def fieldsText : List (String × Json) → List Char
  | [] => []
  | (key, value) :: rest =>
    '"' :: (quoteTail key ++ ':' :: (value.render.toList ++ (renderFields rest).toList))

theorem value?_null (n : Nat) (rest : List Char) :
    value? (n + 1) ('n' :: 'u' :: 'l' :: 'l' :: rest) = some (.null, rest) := rfl

theorem value?_true (n : Nat) (rest : List Char) :
    value? (n + 1) ('t' :: 'r' :: 'u' :: 'e' :: rest) = some (.bool true, rest) := rfl

theorem value?_false (n : Nat) (rest : List Char) :
    value? (n + 1) ('f' :: 'a' :: 'l' :: 's' :: 'e' :: rest) = some (.bool false, rest) := rfl

theorem value?_quote (n : Nat) (rest : List Char) :
    value? (n + 1) ('"' :: rest) = (string? rest).map fun read => (.string read.1, read.2) := rfl

theorem value?_emptyArray (n : Nat) (rest : List Char) :
    value? (n + 1) ('[' :: ']' :: rest) = some (.array [], rest) := rfl

theorem value?_emptyObject (n : Nat) (rest : List Char) :
    value? (n + 1) ('\x7b' :: '\x7d' :: rest) = some (.object [], rest) := rfl

theorem value?_array (n : Nat) {c : Char} {cs : List Char} (hc : IsFirst c) :
    value? (n + 1) ('[' :: c :: cs)
      = (items? n (c :: cs)).map fun read => (.array read.1, read.2) := by
  rw [value?.eq_def]
  simp only [skipSpace_cons (c := '[') (by decide), skipSpace_cons hc.1]
  split
  · rename_i heq
    injection heq with hhead _
    exact absurd hhead hc.2
  · rfl

theorem value?_object (n : Nat) (cs : List Char) :
    value? (n + 1) ('\x7b' :: '"' :: cs)
      = (fields? n ('"' :: cs)).map fun read => (ofFields read.1, read.2) := rfl

theorem value?_digit (n : Nat) {c : Char} {cs : List Char} (hc : Numeral.isDigit c = true) :
    value? (n + 1) (c :: cs)
      = (number? (c :: cs)).map fun read => (.number read.1, read.2) := by
  rw [value?.eq_def]
  simp only [skipSpace_cons (isFirst_of_isDigit hc).1]
  split <;> first | rfl | (injection ‹_ :: _ = _ :: _› with hhead _; subst hhead; cases hc)

/-- A field that the closing bracket follows is the last one. -/
theorem fields?_last (n : Nat) (key : String) {value : Json} {cs rest : List Char}
    (hvalue : value? n cs = some (value, '\x7d' :: rest)) :
    fields? (n + 1) ('"' :: (quoteTail key ++ ':' :: cs)) = some ([(some key, value)], rest) := by
  rw [fields?.eq_def]
  simp only [skipSpace_cons (c := '"') (by decide), key?_quoteTail, Option.bind_eq_bind,
    Option.bind_some, skipSpace_cons (c := ':') (by decide), hvalue]
  rfl

/-- After a comma there are further fields. -/
theorem fields?_more (n : Nat) (key : String) {value : Json} {cs rest : List Char}
    (hvalue : value? n cs = some (value, ',' :: rest)) :
    fields? (n + 1) ('"' :: (quoteTail key ++ ':' :: cs))
      = (fields? n rest).bind fun read => some ((some key, value) :: read.1, read.2) := by
  rw [fields?.eq_def]
  simp only [skipSpace_cons (c := '"') (by decide), key?_quoteTail, Option.bind_eq_bind,
    Option.bind_some, skipSpace_cons (c := ':') (by decide), hvalue]
  rfl

theorem toList_render_array (item : Json) (rest : List Json) :
    (Json.array (item :: rest)).render.toList = '[' :: itemsText (item :: rest) := by
  simp [render, itemsText]

theorem toList_render_object (field : String × Json) (rest : List (String × Json)) :
    (Json.object (field :: rest)).render.toList = '\x7b' :: fieldsText (field :: rest) := by
  simp [render, fieldsText, toList_quote]

/-- Printed values, items and fields are read back with some fuel, whatever follows them. -/
structure ReadsBack (n : Nat) : Prop where
  value : ∀ j rest, IsWhole j → j.render.toList.length ≤ n → Ends rest →
    value? n (j.render.toList ++ rest) = some (j, rest)
  items : ∀ items rest, items ≠ [] → AreWhole items → (itemsText items).length ≤ n →
    items? n (itemsText items ++ rest) = some (items, rest)
  fields : ∀ fields rest, fields ≠ [] → HaveWhole fields → (fieldsText fields).length ≤ n →
    fields? n (fieldsText fields ++ rest)
      = some (fields.map fun field => (some field.1, field.2), rest)

theorem value?_render_succ {n : Nat} (ih : ReadsBack n) {j : Json} (hj : IsWhole j) {rest : List Char}
    (hn : j.render.toList.length ≤ n + 1) (hrest : Ends rest) :
    value? (n + 1) (j.render.toList ++ rest) = some (j, rest) := by
  cases j with
  | null => exact value?_null n rest
  | bool value =>
    cases value with
    | true => exact value?_true n rest
    | false => exact value?_false n rest
  | number literal =>
    obtain ⟨m, rfl⟩ := hj
    have hread := number?_digits m hrest
    obtain ⟨d, ds, hds, hdigit⟩ := exists_digits_cons m
    have htext : (Json.number (Numeral.ofNat m)).render.toList = d :: ds := by
      rw [render, Numeral.ofNat, String.toList_ofList, hds]
    rw [hds] at hread
    rw [htext, List.cons_append, value?_digit n hdigit, ← List.cons_append, hread]
    rfl
  | string text =>
    rw [render, toList_quote, List.cons_append, value?_quote, string?_quoteTail]
    rfl
  | array items =>
    cases items with
    | nil => exact value?_emptyArray n rest
    | cons item items =>
      -- the first item does not begin with the closing bracket
      obtain ⟨c, more, hrender, hfirst⟩ := render_cons (j := item) hj.1
      rw [toList_render_array, List.length_cons] at hn
      have hitems := ih.items (item :: items) rest (List.cons_ne_nil _ _) hj (by omega)
      have htext : itemsText (item :: items) ++ rest
          = c :: (more ++ (renderItems items).toList ++ rest) := by
        rw [itemsText, hrender, List.cons_append, List.cons_append]
      rw [htext] at hitems
      rw [toList_render_array, List.cons_append, htext, value?_array n hfirst, hitems]
      rfl
  | object fields =>
    cases fields with
    | nil => exact value?_emptyObject n rest
    | cons field fields =>
      obtain ⟨key, value⟩ := field
      rw [toList_render_object, List.length_cons] at hn
      have hfields := ih.fields ((key, value) :: fields) rest (List.cons_ne_nil _ _) hj (by omega)
      rw [toList_render_object, List.cons_append]
      rw [fieldsText, List.cons_append] at hfields ⊢
      rw [value?_object, hfields]
      simp only [Option.map_some, ofFields_map]
  | unreadable => exact hj.elim

theorem items?_itemsText_succ {n : Nat} (ih : ReadsBack n) {items : List Json} (hne : items ≠ [])
    (hitems : AreWhole items) {rest : List Char} (hn : (itemsText items).length ≤ n + 1) :
    items? (n + 1) (itemsText items ++ rest) = some (items, rest) := by
  match items, hne, hitems with
  | [item], _, hitems =>
    have hclose : (renderItems []).toList = [']'] := rfl
    rw [itemsText, hclose, List.length_append, List.length_singleton] at hn
    have hvalue := ih.value item (']' :: rest) hitems.1 (by omega) (ends_cons (by decide))
    rw [itemsText, hclose, List.append_assoc, List.singleton_append, items?, hvalue]
    rfl
  | item :: next :: items, _, hitems =>
    have hmore : (renderItems (next :: items)).toList = ',' :: itemsText (next :: items) := by
      simp [renderItems, itemsText]
    rw [itemsText, List.length_append, hmore, List.length_cons] at hn
    have hvalue := ih.value item (',' :: (itemsText (next :: items) ++ rest)) hitems.1
      (by omega) (ends_cons (by decide))
    have hrest := ih.items (next :: items) rest (List.cons_ne_nil _ _) hitems.2 (by omega)
    rw [itemsText, hmore, List.append_assoc, List.cons_append, items?, hvalue]
    simp only [Option.bind_eq_bind, Option.bind_some, skipSpace_cons (c := ',') (by decide), hrest]
    rfl

theorem fields?_fieldsText_succ {n : Nat} (ih : ReadsBack n) {fields : List (String × Json)}
    (hne : fields ≠ []) (hfields : HaveWhole fields) {rest : List Char}
    (hn : (fieldsText fields).length ≤ n + 1) :
    fields? (n + 1) (fieldsText fields ++ rest)
      = some (fields.map fun field => (some field.1, field.2), rest) := by
  match fields, hne, hfields with
  | [(key, value)], _, hfields =>
    have hclose : (renderFields []).toList = ['\x7d'] := rfl
    rw [fieldsText, hclose, List.length_cons, List.length_append, List.length_cons,
      List.length_append] at hn
    have hvalue := ih.value value ('\x7d' :: rest) hfields.1 (by omega) (ends_cons (by decide))
    have htext : fieldsText [(key, value)] ++ rest
        = '"' :: (quoteTail key ++ ':' :: (value.render.toList ++ '\x7d' :: rest)) := by
      simp [fieldsText, hclose]
    rw [htext, fields?_last n key hvalue]
    rfl
  | (key, value) :: next :: fields, _, hfields =>
    have hmore : (renderFields (next :: fields)).toList = ',' :: fieldsText (next :: fields) := by
      simp [renderFields, fieldsText, toList_quote]
    rw [fieldsText, hmore, List.length_cons, List.length_append, List.length_cons,
      List.length_append, List.length_cons] at hn
    have hvalue := ih.value value (',' :: (fieldsText (next :: fields) ++ rest)) hfields.1 (by omega)
      (ends_cons (by decide))
    have hrest := ih.fields (next :: fields) rest (List.cons_ne_nil _ _) hfields.2 (by omega)
    have htext : fieldsText ((key, value) :: next :: fields) ++ rest
        = '"' :: (quoteTail key ++ ':' ::
          (value.render.toList ++ ',' :: (fieldsText (next :: fields) ++ rest))) := by
      simp [fieldsText, hmore]
    rw [htext, fields?_more n key hvalue, hrest]
    rfl

theorem readsBack (n : Nat) : ReadsBack n := by
  induction n with
  | zero =>
    refine ⟨fun j rest hj hn _ => ?_, fun items rest hne hitems hn => ?_,
      fun fields rest hne hfields hn => ?_⟩
    -- no text is empty
    · obtain ⟨c, more, hrender, -⟩ := render_cons hj
      rw [hrender] at hn
      cases hn
    · match items, hne with
      | item :: items, _ =>
        obtain ⟨c, more, hrender, -⟩ := render_cons (j := item) hitems.1
        rw [itemsText, hrender] at hn
        cases hn
    · match fields, hne with
      | (key, value) :: fields, _ => cases hn
  | succ n ih =>
    exact ⟨fun j rest hj hn hrest => value?_render_succ ih hj hn hrest,
      fun items rest hne hitems hn => items?_itemsText_succ ih hne hitems hn,
      fun fields rest hne hfields hn => fields?_fieldsText_succ ih hne hfields hn⟩

/-- What is printed is read back. -/
theorem parse?_render {j : Json} (hj : IsWhole j) : parse? j.render = some j := by
  have hvalue := (readsBack (j.render.toList.length + 1)).value j [] hj (Nat.le_succ _) ends_nil
  rw [List.append_nil] at hvalue
  rw [parse?]
  simp only [hvalue]
  rfl

end BlockFeed.Json
