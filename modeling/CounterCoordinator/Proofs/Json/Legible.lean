import CounterCoordinator.Json.Field
import CounterCoordinator.Json.Reader
import CounterCoordinator.Json.Writer
import CounterCoordinator.Proofs.Text.Parts
import Mathlib.Data.List.Forall2

/-!
# Reading JSON back

Natural numbers, truth values and strings that need no escapes are read back from their texts, and
so are arrays and objects made of what is read back. The fuel of the reader lasts, because every
level and every part takes at least one character. A record written as an object has its fields
found again.
-/
namespace CounterCoordinator.Json
variable {cs rest text : List Char} {v : Json} {c : Char} {n fuel : Nat}

/-- What may follow a value: the end, or what sets values off from each other. -/
def Ends (rest : List Char) : Prop :=
  ∀ c ∈ rest.head?, c = ',' ∨ c = ']' ∨ c = '\x7d'

/-- A text that is read as this value, whatever may follow it. -/
structure Reads (text : List Char) (v : Json) : Prop where
  starts : ∃ c, text.head? = some c ∧ isBlank c = false ∧ c ≠ ']'
  read : ∀ fuel rest, 2 * text.length ≤ fuel → Ends rest →
    value? fuel (text ++ rest) = some (v, rest)

theorem skipBlanks_append (hc : text.head? = some c) (hblank : isBlank c = false) :
    skipBlanks (text ++ rest) = text ++ rest := by
  refine Text.dropWhile_of_head? ?_ hblank
  rw [List.head?_append, hc, Option.some_or]

theorem Ends.nil : Ends [] := by
  simp [Ends]

theorem Ends.of_char (hc : c = ',' ∨ c = ']' ∨ c = '\x7d') : Ends (c :: rest) := by
  intro d hd
  rw [List.head?_cons, Option.mem_def, Option.some.injEq] at hd
  exact hd ▸ hc

theorem isDigit_of_ends (hrest : Ends rest) (hc : rest.head? = some c) :
    Text.isDigit c = false := by
  rcases hrest c hc with rfl | rfl | rfl <;> rfl

theorem takeWhile_ends (hrest : Ends rest) (hcs : ∀ c ∈ cs, Text.isDigit c) :
    (cs ++ rest).takeWhile Text.isDigit = cs ∧ (cs ++ rest).dropWhile Text.isDigit = rest := by
  cases rest with
  | nil =>
    rw [List.append_nil, List.takeWhile_eq_self_iff.mpr hcs, List.dropWhile_eq_nil_iff.mpr hcs]
    exact ⟨rfl, rfl⟩
  | cons c rest => exact Text.span_digits hcs rfl (isDigit_of_ends hrest rfl)

theorem exists_first_digit (n : Nat) :
    ∃ first more, Text.decimalText n = first :: more ∧ Text.isDigit first := by
  obtain ⟨first, more, hfirst⟩ := List.exists_cons_of_ne_nil
    (Nat.toDigits_ne_nil (n := n) (b := 10))
  have hfirst : Text.decimalText n = first :: more := hfirst
  refine ⟨first, more, hfirst, ?_⟩
  apply Text.isDigit_of_mem_decimalText (n := n)
  rw [hfirst]
  exact List.mem_cons_self

theorem wholePart?_decimalText (hrest : Ends rest) (n : Nat) :
    wholePart? (Text.decimalText n ++ rest) = some (Text.decimalText n, rest) := by
  by_cases hn : n = 0
  · rw [hn]
    rfl
  · have hhead := Text.head?_decimalText hn
    obtain ⟨first, more, hfirst, -⟩ := exists_first_digit n
    obtain ⟨htake, hdrop⟩ := takeWhile_ends hrest
      fun c hc => Text.isDigit_of_mem_decimalText (n := n) hc
    have hsome : someDigits? (Text.decimalText n ++ rest) = some (Text.decimalText n, rest) := by
      rw [someDigits?, htake, hdrop, hfirst]
      rfl
    rw [hfirst] at hhead hsome ⊢
    rw [List.cons_append, wholePart?.eq_2]
    · exact hsome
    · intro cs hcs
      cases hcs
      exact hhead rfl

theorem read?_decimalText (hrest : Ends rest) (n : Nat) :
    Number.read? (Text.decimalText n ++ rest) =
      some (⟨false, Text.decimalText n, none, none⟩, rest) := by
  have hwhole := wholePart?_decimalText hrest n
  obtain ⟨first, more, hfirst, hdigit⟩ := exists_first_digit n
  rw [hfirst] at hwhole ⊢
  have hfraction : fractionPart? rest = some (none, rest) := by
    unfold fractionPart?
    split
    · rcases hrest _ rfl with h | h | h <;> cases h
    · rfl
  have hexponent : exponentPart? rest = some (none, rest) := by
    cases rest with
    | nil => rfl
    | cons c rest =>
      rw [exponentPart?, if_neg]
      rcases hrest c rfl with rfl | rfl | rfl <;> decide
  rw [List.cons_append] at hwhole ⊢
  unfold Number.read?
  split
  rename_i negative cs hsign
  split at hsign
  · rename_i heq
    cases heq
    cases hdigit
  · cases hsign
    simp [hwhole, hfraction, hexponent]

theorem reads_ofNat (n : Nat) : Reads (Text.decimalText n) (ofNat n) := by
  obtain ⟨first, more, hfirst, hdigit⟩ := exists_first_digit n
  have hblank : isBlank first = false ∧ first ≠ ']' := by
    constructor
    · by_contra h
      simp only [isBlank, Bool.not_eq_false, Bool.or_eq_true, beq_iff_eq] at h
      rcases h with ((rfl | rfl) | rfl) | rfl <;> cases hdigit
    · rintro rfl
      cases hdigit
  constructor
  · exact ⟨first, by rw [hfirst]; rfl, hblank⟩
  · intro fuel rest hfuel hrest
    have hread := read?_decimalText hrest n
    rw [hfirst] at hfuel hread ⊢
    obtain ⟨fuel, rfl⟩ : ∃ k, fuel = k + 1 := ⟨fuel - 1, by simp at hfuel; omega⟩
    rw [value?, skipBlanks_append rfl hblank.1]
    split
    iterate 6
      next heq =>
        cases heq
        cases hdigit
    simp only [hread, Option.map_some, List.length_append, Nat.add_sub_cancel, List.take_left,
      ofNat, hfirst]

theorem reads_bool (b : Bool) : Reads (if b then "true" else "false").toList (.bool b) := by
  constructor
  · cases b
    · exact ⟨'f', rfl, rfl, by decide⟩
    · exact ⟨'t', rfl, rfl, by decide⟩
  · intro fuel rest hfuel hrest
    obtain ⟨fuel, rfl⟩ : ∃ k, fuel = k + 1 := ⟨fuel - 1, by cases b <;> simp at hfuel <;> omega⟩
    cases b <;> rfl

def Plain (c : Char) : Prop := 0x20 ≤ c.toNat ∧ c ≠ '"' ∧ c ≠ '\\'

instance : DecidablePred Plain := fun c =>
  inferInstanceAs (Decidable (0x20 ≤ c.toNat ∧ c ≠ '"' ∧ c ≠ '\\'))

theorem escape_plain (hc : Plain c) : escape c = [c] := by
  obtain ⟨hlow, hquote, hbackslash⟩ := hc
  have htab : c ≠ '\t' := by rintro rfl; revert hlow; decide
  have hline : c ≠ '\n' := by rintro rfl; revert hlow; decide
  have hreturn : c ≠ '\r' := by rintro rfl; revert hlow; decide
  rw [escape, if_neg hquote, if_neg hbackslash, if_neg (by omega), if_neg htab, if_neg hline,
    if_neg (by omega), if_neg hreturn, if_neg (by omega)]

theorem flatMap_escape_plain (hcs : ∀ c ∈ cs, Plain c) : cs.flatMap escape = cs := by
  induction cs with
  | nil => rfl
  | cons c cs ih =>
    rw [List.flatMap_cons, escape_plain (hcs c List.mem_cons_self),
      ih fun d hd => hcs d (List.mem_cons_of_mem _ hd)]
    rfl

theorem pieces?_plain (hcs : ∀ c ∈ cs, Plain c) :
    pieces? (cs ++ '"' :: rest) = some (cs.map .char, rest) := by
  induction cs with
  | nil => rfl
  | cons c cs ih =>
    obtain ⟨hlow, hquote, hbackslash⟩ := hcs c List.mem_cons_self
    have hrest := ih fun d hd => hcs d (List.mem_cons_of_mem _ hd)
    rw [List.cons_append, pieces?.eq_5]
    · rw [if_neg (by rintro (h | h) <;> [omega; exact hbackslash h]), hrest]
      rfl
    · exact hquote
    · exact fun _ _ _ _ _ h _ => hbackslash h
    · exact fun _ _ h _ => hbackslash h

theorem join?_plain (cs : List Char) : join? (cs.map .char) = some cs := by
  induction cs with
  | nil => rfl
  | cons c cs ih => rw [List.map_cons, join?, ih, Option.map_some]

theorem stringRest?_plain (hcs : ∀ c ∈ cs, Plain c) :
    stringRest? (cs ++ '"' :: rest) = some (some (String.ofList cs), rest) := by
  simp only [stringRest?, pieces?_plain hcs, join?_plain, Option.map_some]

theorem toList_quote_plain {s : String} (hs : ∀ c ∈ s.toList, Plain c) :
    (quote s).toList = '"' :: (s.toList ++ ['"']) := by
  rw [quote, String.toList_ofList, flatMap_escape_plain hs]
  rfl

def textAt (depth : Nat) (v : Json) : List Char := (render .compact depth v).toList

/-- A value that is read back from its text without blanks, at whatever depth it was written. -/
def Legible (v : Json) : Prop := ∀ depth, Reads (textAt depth v) v

theorem legible_ofNat (n : Nat) : Legible (ofNat n) := by
  intro depth
  rw [textAt, ofNat, render, String.toList_ofList]
  exact reads_ofNat n

theorem legible_bool (b : Bool) : Legible (.bool b) := by
  intro depth
  rw [textAt, render]
  exact reads_bool b

theorem legible_ofString {s : String} (hs : ∀ c ∈ s.toList, Plain c) : Legible (ofString s) := by
  intro depth
  have htext : textAt depth (ofString s) = '"' :: (s.toList ++ ['"']) := toList_quote_plain hs
  rw [htext]
  refine ⟨⟨'"', rfl, rfl, by decide⟩, ?_⟩
  intro fuel rest hfuel hrest
  obtain ⟨fuel, rfl⟩ : ∃ k, fuel = k + 1 := ⟨fuel - 1, by simp at hfuel; omega⟩
  have hread : stringRest? (s.toList ++ ['"'] ++ rest) = some (some s, rest) := by
    rw [List.append_assoc, List.singleton_append, stringRest?_plain hs, String.ofList_toList]
  have hvalue : value? (fuel + 1) ('"' :: (s.toList ++ ['"'] ++ rest)) =
      (stringRest? (s.toList ++ ['"'] ++ rest)).map fun p => (.string p.1, p.2) := rfl
  rw [List.cons_append, hvalue, hread]
  rfl

/-- Parts of an array or an object, with commas between them. -/
def commas (parts : List (List Char)) : List Char := List.intercalate [','] parts

theorem commas_singleton (part : List Char) : commas [part] = part :=
  List.intercalate_singleton

theorem commas_cons_cons (part next : List Char) (parts : List (List Char)) :
    commas (part :: next :: parts) = part ++ ',' :: commas (next :: parts) := by
  rw [commas, List.intercalate_cons_cons, List.append_assoc]
  rfl

theorem skipBlanks_of_ends (hc : c = ',' ∨ c = ']' ∨ c = '\x7d') :
    skipBlanks (c :: rest) = c :: rest := by
  rcases hc with rfl | rfl | rfl <;> rfl

theorem items?_commas {items : List Json} (depth fuel : Nat) (rest : List Char)
    (hitems : ∀ v ∈ items, Legible v) (hne : items ≠ [])
    (hfuel : 2 * ((commas (items.map (textAt depth))).length + 1) ≤ fuel) :
    items? fuel (commas (items.map (textAt depth)) ++ ']' :: rest) = some (items, rest) := by
  -- The fuel left covers the items left, since every item has a comma or the bracket behind it.
  induction items generalizing fuel with
  | nil => exact absurd rfl hne
  | cons v items ih =>
    obtain ⟨fuel, rfl⟩ : ∃ k, fuel = k + 1 := ⟨fuel - 1, by omega⟩
    have hfirst := (hitems v List.mem_cons_self depth).read fuel
    cases items with
    | nil =>
      rw [List.map_cons, List.map_nil, commas_singleton] at hfuel ⊢
      have hread := hfirst (']' :: rest) (by omega) (.of_char (by decide))
      simp [items?, hread, skipBlanks_of_ends]
    | cons w items =>
      have hothers : ∀ u ∈ w :: items, Legible u := fun u hu => hitems u (List.mem_cons_of_mem _ hu)
      rw [List.map_cons, List.map_cons, commas_cons_cons] at hfuel ⊢
      rw [List.length_append, List.length_cons] at hfuel
      rw [List.append_assoc, List.cons_append]
      have hlater := ih fuel hothers (List.cons_ne_nil w items) (by rw [List.map_cons]; omega)
      rw [List.map_cons] at hlater
      have hread := hfirst (',' :: (commas (textAt depth w :: items.map (textAt depth)) ++
        ']' :: rest)) (by omega) (.of_char (by decide))
      simp [items?, hread, skipBlanks_of_ends, hlater]

def memberText (depth : Nat) (m : String × Json) : List Char :=
  (quote m.1).toList ++ ':' :: textAt depth m.2

theorem members?_commas {members : List (String × Json)} (depth fuel : Nat) (rest : List Char)
    (hmembers : ∀ m ∈ members, (∀ c ∈ m.1.toList, Plain c) ∧ Legible m.2) (hne : members ≠ [])
    (hfuel : 2 * ((commas (members.map (memberText depth))).length + 1) ≤ fuel) :
    members? fuel (commas (members.map (memberText depth)) ++ '\x7d' :: rest) =
      some (members.map fun (k, v) => (some k, v), rest) := by
  induction members generalizing fuel with
  | nil => exact absurd rfl hne
  | cons m members ih =>
    obtain ⟨key, v⟩ := m
    obtain ⟨fuel, rfl⟩ : ∃ k, fuel = k + 1 := ⟨fuel - 1, by omega⟩
    obtain ⟨hkey, hvalue⟩ : (∀ c ∈ key.toList, Plain c) ∧ Legible v :=
      hmembers _ List.mem_cons_self
    have hfirst := (hvalue depth).read fuel
    have hname : ∀ rest, stringRest? (key.toList ++ '"' :: rest) = some (some key, rest) := by
      intro rest
      rw [stringRest?_plain hkey, String.ofList_toList]
    have htext : memberText depth (key, v) =
        '"' :: (key.toList ++ '"' :: ':' :: textAt depth v) := by
      rw [memberText, toList_quote_plain hkey, List.cons_append, List.append_assoc]
      rfl
    cases members with
    | nil =>
      rw [List.map_cons, List.map_nil, commas_singleton, htext] at hfuel ⊢
      simp only [List.length_append, List.length_cons] at hfuel
      have hread := hfirst ('\x7d' :: rest) (by omega) (.of_char (by decide))
      simp [members?, skipBlanks, isBlank, hname, hread]
    | cons next members =>
      have hothers : ∀ m ∈ next :: members, (∀ c ∈ m.1.toList, Plain c) ∧ Legible m.2 :=
        fun m hm => hmembers m (List.mem_cons_of_mem _ hm)
      rw [List.map_cons, List.map_cons, commas_cons_cons, htext] at hfuel ⊢
      simp only [List.length_append, List.length_cons] at hfuel
      have hlater := ih fuel hothers (List.cons_ne_nil next members) (by rw [List.map_cons]; omega)
      rw [List.map_cons] at hlater
      have hread := hfirst (',' :: (commas (memberText depth next :: members.map
        (memberText depth)) ++ '\x7d' :: rest)) (by omega) (.of_char (by decide))
      simp [members?, skipBlanks, isBlank, hname, hread, hlater]

theorem renderItems_eq_map (st : Style) (depth : Nat) (items : List Json) :
    renderItems st depth items = items.map (render st depth) := by
  induction items with
  | nil => rw [renderItems]; rfl
  | cons v items ih => rw [renderItems, ih]; rfl

theorem renderMembers_eq_map (st : Style) (depth : Nat) (members : List (String × Json)) :
    renderMembers st depth (members.map fun (k, v) => (some k, v)) =
      members.map fun m => quote m.1 ++ st.colon ++ render st depth m.2 := by
  induction members with
  | nil => rw [List.map_nil, renderMembers]; rfl
  | cons m members ih => rw [List.map_cons, renderMembers, ih]; rfl

theorem toList_enclose (depth : Nat) (opening closing : String) (parts : List String) :
    (Style.compact.enclose depth opening closing parts).toList =
      opening.toList ++ (commas (parts.map String.toList) ++ closing.toList) := by
  have hgap : (parts.map fun p => Style.compact.gap (depth + 1) ++ p) = parts := by
    simp [Style.compact]
  rw [Style.enclose, hgap]
  split
  · rename_i hempty
    rw [List.isEmpty_iff.mp hempty]
    exact String.toList_append ..
  · simp [Style.compact, commas, String.toList_intercalate]

theorem textAt_array (depth : Nat) (items : List Json) :
    textAt depth (.array items) = '[' :: (commas (items.map (textAt (depth + 1))) ++ [']']) := by
  rw [textAt, render, toList_enclose, renderItems_eq_map, List.map_map]
  rfl

theorem textAt_ofMembers (depth : Nat) (members : List (String × Json)) :
    textAt depth (ofMembers members) =
      '\x7b' :: (commas (members.map (memberText (depth + 1))) ++ ['\x7d']) := by
  have hparts : ((members.map fun m => quote m.1 ++ Style.compact.colon ++
      render .compact (depth + 1) m.2).map String.toList) =
        members.map (memberText (depth + 1)) := by
    simp [memberText, textAt, Style.compact]
  rw [textAt, ofMembers, render, toList_enclose, renderMembers_eq_map, hparts]
  rfl

theorem head?_commas {part : List Char} (hc : part.head? = some c) (parts : List (List Char)) :
    (commas (part :: parts)).head? = some c := by
  cases parts with
  | nil => rwa [commas_singleton]
  | cons next parts => rw [commas_cons_cons, List.head?_append, hc, Option.some_or]

theorem legible_array {items : List Json} (hitems : ∀ v ∈ items, Legible v) :
    Legible (.array items) := by
  intro depth
  rw [textAt_array]
  refine ⟨⟨'[', rfl, rfl, by decide⟩, ?_⟩
  intro fuel rest hfuel hrest
  obtain ⟨fuel, rfl⟩ : ∃ k, fuel = k + 1 := ⟨fuel - 1, by simp at hfuel; omega⟩
  rw [List.cons_append, List.append_assoc, List.singleton_append]
  cases items with
  | nil => rfl
  | cons v items =>
    obtain ⟨c, hc, hblank, hopen⟩ := (hitems v List.mem_cons_self (depth + 1)).starts
    have hread := items?_commas (depth + 1) fuel rest hitems (List.cons_ne_nil v items)
      (by simp at hfuel ⊢; omega)
    -- The first character must be in sight, to see that it is no closing bracket.
    obtain ⟨more, hmore⟩ := List.head?_eq_some_iff.mp
      (head?_commas hc (items.map (textAt (depth + 1))))
    rw [List.map_cons, hmore] at hread ⊢
    have hskip : skipBlanks ('[' :: (c :: more ++ ']' :: rest)) =
        '[' :: (c :: more ++ ']' :: rest) := rfl
    rw [value?, hskip]
    simp only
    rw [skipBlanks_append rfl hblank]
    split
    · rename_i heq
      exact absurd (List.cons.inj heq).1 hopen
    · rw [hread]
      rfl

/-- An object is read back if its members are, and their names need no escapes. -/
theorem legible_ofMembers {members : List (String × Json)}
    (hmembers : ∀ m ∈ members, (∀ c ∈ m.1.toList, Plain c) ∧ Legible m.2) :
    Legible (ofMembers members) := by
  intro depth
  rw [textAt_ofMembers]
  refine ⟨⟨'\x7b', rfl, rfl, by decide⟩, ?_⟩
  intro fuel rest hfuel hrest
  obtain ⟨fuel, rfl⟩ : ∃ k, fuel = k + 1 := ⟨fuel - 1, by simp at hfuel; omega⟩
  rw [List.cons_append, List.append_assoc, List.singleton_append]
  cases members with
  | nil => rfl
  | cons m members =>
    have hquote : (memberText (depth + 1) m).head? = some '"' := by
      rw [memberText, toList_quote_plain (hmembers m List.mem_cons_self).1]
      rfl
    have hread := members?_commas (depth + 1) fuel rest hmembers (List.cons_ne_nil m members)
      (by simp at hfuel ⊢; omega)
    obtain ⟨more, hmore⟩ := List.head?_eq_some_iff.mp
      (head?_commas hquote (members.map (memberText (depth + 1))))
    rw [List.map_cons, hmore] at hread ⊢
    have hvalue : value? (fuel + 1) ('\x7b' :: ('"' :: more ++ '\x7d' :: rest)) =
        (members? fuel ('"' :: more ++ '\x7d' :: rest)).map fun p => (.object p.1, p.2) := rfl
    rw [hvalue, hread]
    rfl

theorem Legible.read?_compact (hv : Legible v) : read? v.compact = some v := by
  have hread := (hv 0).read (2 * v.compact.toList.length + 1) [] (Nat.le_succ _) .nil
  rw [List.append_nil] at hread
  have hread : value? (2 * v.compact.toList.length + 1) v.compact.toList = some (v, []) := hread
  rw [read?, hread]
  rfl

theorem mapM_eq_some_iff {α β : Type} {f : α → Option β} {as : List α} {bs : List β} :
    as.mapM f = some bs ↔ List.Forall₂ (fun a b => f a = some b) as bs := by
  induction as generalizing bs with
  | nil => cases bs <;> simp
  | cons a as ih =>
    rw [List.forall₂_cons_left_iff]
    simp only [List.mapM_cons, Option.bind_eq_bind, Option.bind_eq_some_iff, Option.pure_def,
      Option.some.injEq, ih]
    constructor
    · rintro ⟨b, hb, bs', hbs, rfl⟩
      exact ⟨b, bs', hb, hbs, rfl⟩
    · rintro ⟨b, bs', hb, hbs, rfl⟩
      exact ⟨b, hb, bs', hbs, rfl⟩

theorem member?_of_mem {members : List (String × Json)} {name : String}
    (hnames : (members.map Prod.fst).Nodup) (hm : (name, v) ∈ members) :
    member? (members.map fun (k, v) => (some k, v)) name = some (some v) := by
  have hfilter : (members.map fun (k, v) => ((some k, v) : Json.Quoted × Json)).filter
      (fun m => m.1 == some name) = [(some name, v)] := by
    induction members with
    | nil => cases hm
    | cons m members ih =>
      obtain ⟨key, w⟩ := m
      obtain ⟨hkey, hothers⟩ := List.nodup_cons.mp hnames
      rcases List.mem_cons.mp hm with heq | hlater
      · cases heq
        rw [List.map_cons, List.filter_cons_of_pos (by simp)]
        refine congrArg (List.cons _) (List.filter_eq_nil_iff.mpr ?_)
        intro m hm hname
        obtain ⟨⟨other, u⟩, hother, rfl⟩ := List.mem_map.mp hm
        have hsame : other = name := by simpa using hname
        exact hkey (List.mem_map.mpr ⟨_, hother, hsame⟩)
      · have hne : key ≠ name := fun heq => hkey (List.mem_map.mpr ⟨_, hlater, heq.symm⟩)
        rw [List.map_cons, List.filter_cons_of_neg (by simpa using hne)]
        exact ih hothers hlater
  rw [member?, hfilter]

theorem fields?_ofMembers {members : List (String × Json)}
    (hnames : (members.map Prod.fst).Nodup) :
    fields? (members.map Prod.fst) (ofMembers members) = some (members.map fun m => some m.2) := by
  have hnamed : (members.map fun (k, v) => ((some k, v) : Json.Quoted × Json)).any
      (fun m => m.1.isNone) = false := by
    simp
  rw [ofMembers, fields?, hnamed, if_neg (by decide), mapM_eq_some_iff,
    List.forall₂_map_left_iff, List.forall₂_map_right_iff, List.forall₂_same]
  exact fun m hm => member?_of_mem hnames hm

theorem word?_ofNat (w : UInt64) : word? (ofNat w.toNat) = some w := by
  have hread := read?_decimalText Ends.nil w.toNat
  rw [List.append_nil] at hread
  have hfits : w.toNat < UInt64.size := w.toNat_lt
  have hnat : nat? (ofNat w.toNat) = some w.toNat := by
    simp only [nat?, ofNat, hread, Number.integer?, Text.decimalValue_decimalText,
      Option.bind_eq_bind, Option.bind_some, Bool.false_eq_true, if_false, Int.toNat_natCast]
    exact if_pos ⟨Int.natCast_nonneg _, hfits⟩
  rw [word?, hnat, Option.map_some, UInt64.ofNat_toNat]

end CounterCoordinator.Json
