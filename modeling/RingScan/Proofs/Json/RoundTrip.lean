import RingScan.Json.Parser
import RingScan.Json.Printer
import RingScan.Proofs.Ring.TokenText

set_option autoImplicit false

/-! # JSON texts are read back

A value that is made of texts, whole numbers that are not too long, lists, and objects whose members
have different names is *legible*: its JSON text is read as that value again (`ofText_toText`), as
long as it nests no deeper than is read. The reader is followed from what is innermost: the pieces
of a text between quotes, the digits of a number, and then values in general, by induction on
legibility, where a value is read off the head of a text and what follows is left alone. Fuel is no
obstacle, since every step takes a character. -/

namespace RingScan

/-! ## Escapes by number -/

namespace Text.Hex

/-- A number in enough digits is read back. -/
theorem number?_fixed {width n : Nat} (h : n < 16 ^ width) : number? (fixed width n) = some n := by
  induction width generalizing n with
  | zero =>
    obtain rfl : n = 0 := by simpa using h
    rfl
  | succ width ih =>
    have hhigh : n / 16 < 16 ^ width :=
      Nat.div_lt_of_lt_mul (by rwa [Nat.pow_succ, Nat.mul_comm] at h)
    have hread := ih hhigh
    rw [number?] at hread
    rw [fixed, number?, List.foldlM_append, hread]
    simp [value?_digit (Nat.mod_lt n (by decide : 0 < 16)), Nat.div_add_mod]

end Text.Hex

namespace Json

/-! ## Texts -/

/-- The piece that a character is written as: control characters without a letter of their own are
    written by their numbers. -/
def pieceOf (c : Char) : Piece :=
  if c.toNat < 0x20 ∧ c ∉ ['\n', '\r', '\t', '\x08', '\x0c'] then .unit c.toNat else .char c

theorem textPieces_letter {letter c : Char} (hu : letter ≠ 'u') (h : escape? letter = some c)
    (rest : List Char) :
    textPieces ('\\' :: letter :: rest) =
      (textPieces rest).map fun (ps, tail) => (.char c :: ps, tail) := by
  rw [textPieces.eq_def]
  simp [hu, h]

theorem textPieces_number {n : Nat} (h : n < 0x20) (rest : List Char) :
    textPieces ('\\' :: 'u' :: (Text.Hex.fixed 4 n ++ rest)) =
      (textPieces rest).map fun (ps, tail) => (.unit n :: ps, tail) := by
  have hread := Text.Hex.number?_fixed (show n < 16 ^ 4 by omega)
  simp only [Text.Hex.fixed, List.nil_append, List.cons_append] at hread ⊢
  simp only [textPieces, hread]

theorem textPieces_char {c : Char} (hquote : c ≠ '"') (hescape : c ≠ '\\') (h : 0x20 ≤ c.toNat)
    (rest : List Char) :
    textPieces (c :: rest) = (textPieces rest).map fun (ps, tail) => (.char c :: ps, tail) := by
  rw [textPieces.eq_def]
  split <;> simp_all

/-- A character that is written is read as its piece. -/
theorem textPieces_printChar (c : Char) (rest : List Char) :
    textPieces (printChar c ++ rest) =
      (textPieces rest).map fun (ps, tail) => (pieceOf c :: ps, tail) := by
  unfold printChar
  simp only [beq_iff_eq]
  -- seven characters have letters of their own
  iterate 7
    split
    · next h =>
      subst h
      exact textPieces_letter (by decide) rfl rest
  split
  · next h =>
    have hpiece : pieceOf c = .unit c.toNat := if_pos ⟨h, by simp_all⟩
    rw [hpiece]
    exact textPieces_number h rest
  · next hquote hescape _ _ _ _ _ h =>
    have hpiece : pieceOf c = .char c := if_neg fun hc => h hc.1
    rw [hpiece]
    exact textPieces_char hquote hescape (Nat.le_of_not_lt h) rest

theorem textPieces_flatMap (cs rest : List Char) :
    textPieces (cs.flatMap printChar ++ '"' :: rest) = .ok (cs.map pieceOf, rest) := by
  induction cs with
  | nil => rfl
  | cons c cs ih =>
    rw [List.flatMap_cons, List.append_assoc, textPieces_printChar, ih]
    rfl

/-- A unit below the space stands for itself and takes no part in pairs. -/
theorem joinPieces_unit {n : Nat} (h : n < 0x20) (ps : List Piece) :
    joinPieces (.unit n :: ps) = Char.ofNat n :: joinPieces ps := by
  have hchar : Text.Surrogate.ofCodePoint n = [Char.ofNat n] := by
    revert n
    decide
  have hjoin (m : Nat) : Text.Surrogate.join? n m = none := by
    rw [Text.Surrogate.join?, if_neg]
    omega
  cases ps with
  | nil => simp [joinPieces, hchar]
  | cons p ps => cases p <;> simp [joinPieces, hchar, hjoin]

/-- The pieces of a text that was written stand for the text. -/
theorem joinPieces_map (cs : List Char) : joinPieces (cs.map pieceOf) = cs := by
  induction cs with
  | nil => rfl
  | cons c cs ih =>
    rw [List.map_cons]
    unfold pieceOf at ih ⊢
    split
    · next h => rw [joinPieces_unit h.1, ih, Char.ofNat_toNat]
    · rw [joinPieces, ih]

/-- The characters of a text are read back, up to its closing quote. -/
theorem textBody_flatMap (cs rest : List Char) :
    textBody (cs.flatMap printChar ++ '"' :: rest) = .ok (cs, rest) := by
  simp only [textBody, textPieces_flatMap, Except.map, joinPieces_map]

/-! ## Whole numbers -/

/-- Whether a text is empty or goes on as texts go on behind a value. -/
def Follows (rest : List Char) : Prop := ∀ c ∈ rest.head?, c = ',' ∨ c = ']' ∨ c = '}'

theorem Follows.nil : Follows [] := by simp [Follows]

theorem Follows.cons {c : Char} (h : c = ',' ∨ c = ']' ∨ c = '}') (rest : List Char) :
    Follows (c :: rest) := by simpa [Follows] using h

theorem isAsciiDigit_of_isDigit {c : Char} (h : c.isDigit = true) : isAsciiDigit c = true := by
  simpa [isAsciiDigit, Char.isDigit, Char.le_def] using h

theorem not_isAsciiDigit_of_follows {c : Char} {rest : List Char} (h : Follows (c :: rest)) :
    isAsciiDigit c = false := by
  rcases h c rfl with rfl | rfl | rfl <;> rfl

/-- No number but zero begins with a zero. -/
theorem head?_digitsOf_ne {n : Nat} (hn : n ≠ 0) : (Decimal.digitsOf n).head? ≠ some '0' := by
  unfold Decimal.digitsOf
  induction n using Nat.strongRecOn with
  | ind n ih =>
    by_cases hlt : n < 10
    · have hdigit : ∀ d < 10, d ≠ 0 → Nat.digitChar d ≠ '0' := by decide
      simpa [Nat.toDigits_of_lt_base hlt] using hdigit n hlt hn
    · have hhigh : n / 10 ≠ 0 := by omega
      rw [Nat.toDigits_of_base_le (by decide) (Nat.le_of_not_lt hlt),
        List.head?_append_of_ne_nil _ Nat.toDigits_ne_nil]
      exact ih (n / 10) (by omega) hhigh

/-- The digits of a number are all of its whole part. -/
theorem wholePart?_digitsOf (n : Nat) {rest : List Char} (hrest : Follows rest) :
    wholePart? (Decimal.digitsOf n ++ rest) = some (Decimal.digitsOf n, rest) := by
  by_cases hn : n = 0
  · subst hn
    rfl
  · cases hdigits : Decimal.digitsOf n with
    | nil => exact absurd hdigits (Integer.digitsOf_ne_nil n)
    | cons c cs =>
      have hzero : c ≠ '0' := by
        have hhead := head?_digitsOf_ne hn
        simpa [hdigits] using hhead
      have hall : ∀ d ∈ c :: cs, isAsciiDigit d = true := fun d hd =>
        isAsciiDigit_of_isDigit (Integer.isDigit_of_mem_digitsOf (hdigits ▸ hd))
      obtain ⟨hc, hcs⟩ := List.forall_mem_cons.1 hall
      have hstop : rest.takeWhile isAsciiDigit = [] ∧ rest.dropWhile isAsciiDigit = rest := by
        cases rest with
        | nil => exact ⟨rfl, rfl⟩
        | cons d rest => simp [not_isAsciiDigit_of_follows hrest]
      simp [wholePart?, hzero, hc, List.takeWhile_append_of_pos hcs,
        List.dropWhile_append_of_pos hcs, hstop]

/-- The digits of a number that is not too long are read as that number. -/
theorem magnitude_digitsOf {n : Nat} (h : n < 10 ^ Integer.maxDigits) (negative : Bool)
    {rest : List Char} (hrest : Follows rest) :
    magnitude negative (Decimal.digitsOf n ++ rest) =
      .ok (.int (Binary64.signed negative n), rest) := by
  have hfraction : fractionPart? rest = none := by
    cases rest with
    | nil => rfl
    | cons c rest => rcases hrest c rfl with rfl | rfl | rfl <;> rfl
  have hexponent : exponentPart? rest = none := by
    cases rest with
    | nil => rfl
    | cons c rest => rcases hrest c rfl with rfl | rfl | rfl <;> rfl
  have hlength : ¬ Integer.maxDigits < (Decimal.digitsOf n).length :=
    Nat.not_lt.2 (Integer.length_digitsOf_le h)
  simp only [magnitude, wholePart?_digitsOf n hrest, hfraction, hexponent, if_neg hlength,
    natOfDigits, Integer.ofDigits_digitsOf]

/-! ## Values -/

/-- The values whose texts are read back, nested in each other at most so deep: fractions are left
    out, and what has no text. -/
inductive Legible : Nat → Value → Prop
  | null (n : Nat) : Legible n .null
  | bool (n : Nat) (b : Bool) : Legible n (.bool b)
  | int (n : Nat) {i : Int} (h : Integer.isWritable i = true) : Legible n (.int i)
  | str (n : Nat) (s : String) : Legible n (.str s)
  | arr {n : Nat} {items : List Value} (h : ∀ item ∈ items, Legible n item) :
      Legible (n + 1) (.arr items)
  | obj {n : Nat} {members : List (String × Value)} (hnames : (members.map Prod.fst).Nodup)
      (h : ∀ m ∈ members, Legible n m.2) : Legible (n + 1) (.obj members)

/-! What is legible can be written. -/

theorem firstRefusal?_eq_none {items : List Value} (h : ∀ item ∈ items, refusal? item = none) :
    firstRefusal? items = none := by
  induction items with
  | nil => rfl
  | cons item items ih =>
    obtain ⟨hitem, hitems⟩ := List.forall_mem_cons.1 h
    simp [firstRefusal?, hitem, ih hitems]

theorem firstMemberRefusal?_eq_none {members : List (String × Value)}
    (h : ∀ m ∈ members, refusal? m.2 = none) : firstMemberRefusal? members = none := by
  induction members with
  | nil => rfl
  | cons m members ih =>
    obtain ⟨hm, hmembers⟩ := List.forall_mem_cons.1 h
    simp [firstMemberRefusal?, hm, ih hmembers]

theorem Legible.refusal?_eq_none {n : Nat} {v : Value} (h : Legible n v) : refusal? v = none := by
  induction h with
  | null => rfl
  | bool => rfl
  | int n hint => simp [refusal?, hint]
  | str => rfl
  | arr _ ih => exact firstRefusal?_eq_none ih
  | obj _ _ ih => exact firstMemberRefusal?_eq_none ih

theorem Legible.toText_eq {n : Nat} {v : Value} (h : Legible n v) :
    toText v = .ok (String.ofList (print v)) := by
  rw [toText, h.refusal?_eq_none]

/-! What is written is read off the head of a text. -/

/-- Whether a value is read off the head of every text that goes on behind it as texts do, with as
    much fuel as it has characters. -/
def ReadsBack (n : Nat) (v : Value) : Prop :=
  ∀ fuel rest, (print v).length ≤ fuel → Follows rest →
    value fuel n (print v ++ rest) = .ok (v, rest)

theorem commaSeparated_cons (text : List Char) {texts : List (List Char)} (h : texts ≠ []) :
    Value.commaSeparated (text :: texts) = text ++ ',' :: ' ' :: Value.commaSeparated texts := by
  cases texts with
  | nil => exact absurd rfl h
  | cons other texts => simp [Value.commaSeparated, List.intercalate]

/-- A number is told by its sign, or by a digit. -/
theorem value_digit {fuel n : Nat} {c : Char} (hc : c.isDigit = true) (cs : List Char) :
    value (fuel + 1) n (c :: cs) = magnitude false (c :: cs) := by
  rw [value]
  all_goals
    intros
    simp_all

theorem value_minus {fuel n : Nat} {c : Char} (hc : c.isDigit = true) (cs : List Char) :
    value (fuel + 1) n ('-' :: c :: cs) = magnitude true (c :: cs) := by
  rw [value]
  all_goals
    intros
    simp_all

theorem readsBack_int (n : Nat) {i : Int} (h : Integer.isWritable i = true) :
    ReadsBack n (.int i) := by
  intro fuel rest hfuel hrest
  have hread := magnitude_digitsOf (Integer.isWritable_iff.1 h) (decide (i < 0)) hrest
  rw [Integer.signed_natAbs] at hread
  rw [print] at hfuel ⊢
  unfold Integer.display at hfuel ⊢
  cases hdigits : Decimal.digitsOf i.natAbs with
  | nil => exact absurd hdigits (Integer.digitsOf_ne_nil _)
  | cons c cs =>
    have hc : c.isDigit = true :=
      Integer.isDigit_of_mem_digitsOf (hdigits ▸ List.mem_cons_self : c ∈ _)
    cases fuel with
    | zero => split at hfuel <;> simp [hdigits] at hfuel
    | succ fuel =>
      rw [hdigits] at hread
      split
      · next hneg =>
        rw [decide_eq_true hneg] at hread
        exact (value_minus hc (cs ++ rest)).trans hread
      · next hneg =>
        rw [decide_eq_false hneg] at hread
        exact (value_digit hc (cs ++ rest)).trans hread

theorem exists_commaSeparated_cons (text : List Char) (texts : List (List Char)) :
    ∃ tail, Value.commaSeparated (text :: texts) = text ++ tail := by
  cases texts with
  | nil => exact ⟨[], by simp [Value.commaSeparated]⟩
  | cons other texts => exact ⟨_, commaSeparated_cons text (by simp)⟩

theorem readsBack_str (n : Nat) (s : String) : ReadsBack n (.str s) := by
  intro fuel rest hfuel _
  cases fuel with
  | zero => simp [print, printText] at hfuel
  | succ fuel =>
    simp only [print, printText, List.cons_append, List.append_assoc, List.nil_append, value,
      textBody_flatMap, Except.map, String.ofList_toList]

/-- What is written begins neither with white space nor as a list ends. -/
theorem Legible.print_eq_cons {n : Nat} {v : Value} (h : Legible n v) :
    ∃ c cs, print v = c :: cs ∧ isSpace c = false ∧ c ≠ ']' := by
  cases h with
  | null => exact ⟨_, _, rfl, rfl, by decide⟩
  | bool n b => cases b <;> exact ⟨_, _, rfl, rfl, by decide⟩
  | str => exact ⟨_, _, rfl, rfl, by decide⟩
  | arr => exact ⟨_, _, rfl, rfl, by decide⟩
  | obj => exact ⟨_, _, rfl, rfl, by decide⟩
  | @int n i =>
    rw [print]
    unfold Integer.display
    split
    · exact ⟨_, _, rfl, rfl, by decide⟩
    · cases hdigits : Decimal.digitsOf i.natAbs with
      | nil => exact absurd hdigits (Integer.digitsOf_ne_nil _)
      | cons c cs =>
        have hc : c.isDigit = true :=
          Integer.isDigit_of_mem_digitsOf (hdigits ▸ List.mem_cons_self : c ∈ _)
        refine ⟨c, cs, rfl, ?_, ?_⟩
        · rw [isSpace, Bool.eq_false_iff]
          intro hspace
          simp only [Bool.or_eq_true, beq_iff_eq] at hspace
          rcases hspace with ((rfl | rfl) | rfl) | rfl <;> exact absurd hc (by decide)
        · rintro rfl
          exact absurd hc (by decide)

theorem Legible.skipSpace_print {n : Nat} {v : Value} (h : Legible n v) (rest : List Char) :
    skipSpace (print v ++ rest) = print v ++ rest := by
  obtain ⟨c, cs, hprint, hspace, -⟩ := h.print_eq_cons
  simp [hprint, skipSpace, hspace]

/-- White space behind a comma is passed over. -/
theorem skipSpace_commaSeparated {c : Char} {cs : List Char} (hspace : isSpace c = false)
    (texts : List (List Char)) (rest : List Char) :
    skipSpace (' ' :: (Value.commaSeparated ((c :: cs) :: texts) ++ rest)) =
      Value.commaSeparated ((c :: cs) :: texts) ++ rest := by
  obtain ⟨tail, htail⟩ := exists_commaSeparated_cons (c :: cs) texts
  have hfirst : isSpace ' ' = true := rfl
  simp [htail, skipSpace, hspace, hfirst]

/-- The items of a list are read one by one. -/
theorem itemsFrom_print {n : Nat} {item : Value} {items : List Value}
    (hlegible : ∀ v ∈ item :: items, Legible n v) (h : ∀ v ∈ item :: items, ReadsBack n v)
    (done : List Value) {fuel : Nat} (rest : List Char)
    (hfuel : (Value.commaSeparated (printItems (item :: items))).length ≤ fuel) :
    itemsFrom (fuel + 1) n done (Value.commaSeparated (printItems (item :: items)) ++ ']' :: rest) =
      .ok (.arr (done.reverse ++ item :: items), rest) := by
  induction items generalizing item done fuel with
  | nil =>
    have htext : Value.commaSeparated (printItems [item]) = print item := by
      simp [printItems, Value.commaSeparated]
    rw [htext] at hfuel ⊢
    have hread := h item (by simp) fuel (']' :: rest) hfuel (.cons (by simp) rest)
    simp [itemsFrom, hread, skipSpace, isSpace]
  | cons next items ih =>
    let others := Value.commaSeparated (printItems (next :: items)) ++ ']' :: rest
    have htext : Value.commaSeparated (printItems (item :: next :: items)) =
        print item ++ ',' :: ' ' :: Value.commaSeparated (printItems (next :: items)) := by
      rw [printItems, commaSeparated_cons _ (by simp [printItems])]
    rw [htext, List.length_append, List.length_cons, List.length_cons] at hfuel
    cases fuel with
    | zero => omega
    | succ fuel =>
      have hread : value (fuel + 1) n (print item ++ ',' :: ' ' :: others) =
          .ok (item, ',' :: ' ' :: others) :=
        h item (by simp) _ _ (by omega) (.cons (by simp) _)
      have hskip : skipSpace (' ' :: others) = others := by
        obtain ⟨c, cs, hprint, hspace, -⟩ := (hlegible next (by simp)).print_eq_cons
        simpa only [others, printItems, hprint] using skipSpace_commaSeparated hspace _ _
      calc itemsFrom (fuel + 1 + 1) n done
            (Value.commaSeparated (printItems (item :: next :: items)) ++ ']' :: rest)
          = itemsFrom (fuel + 1) n (item :: done) others := by
            rw [htext, itemsFrom]
            simp only [List.append_assoc, List.cons_append]
            rw [hread]
            exact congrArg (itemsFrom (fuel + 1) n (item :: done)) hskip
        _ = .ok (.arr (done.reverse ++ item :: next :: items), rest) := by
            rw [ih (fun v hv => hlegible v (List.mem_cons_of_mem _ hv))
              (fun v hv => h v (List.mem_cons_of_mem _ hv)) (item :: done) (by omega)]
            simp

theorem value_list {fuel n : Nat} {c : Char} (hspace : isSpace c = false) (hc : c ≠ ']')
    (cs : List Char) : value (fuel + 1) (n + 1) ('[' :: c :: cs) = itemsFrom fuel n [] (c :: cs) := by
  have hskip : skipSpace (c :: cs) = c :: cs := by simp [skipSpace, hspace]
  rw [value]
  simp only [hskip]
  split
  · next h => exact absurd (List.cons.inj h).1 hc
  · rfl

theorem readsBack_arr {n : Nat} {items : List Value} (hlegible : ∀ v ∈ items, Legible n v)
    (h : ∀ v ∈ items, ReadsBack n v) : ReadsBack (n + 1) (.arr items) := by
  intro fuel rest hfuel _
  cases fuel with
  | zero => simp [print] at hfuel
  | succ fuel =>
    simp only [print, List.length_cons, List.length_append, List.length_nil] at hfuel
    cases items with
    | nil => rfl
    | cons item items =>
      obtain ⟨fuel, rfl⟩ := Nat.exists_eq_succ_of_ne_zero (show fuel ≠ 0 by omega)
      have hread : itemsFrom (fuel + 1) n []
          (Value.commaSeparated (printItems (item :: items)) ++ ']' :: rest) =
            .ok (.arr (item :: items), rest) :=
        itemsFrom_print hlegible h [] rest (by omega)
      obtain ⟨tail, htail⟩ := exists_commaSeparated_cons (print item) (printItems items)
      obtain ⟨c, cs, hprint, hspace, hc⟩ := (hlegible item (by simp)).print_eq_cons
      simp only [print, List.cons_append, List.append_assoc, List.nil_append]
      rw [printItems, htail, hprint] at hread ⊢
      exact (value_list hspace hc _).trans hread

/-- A member that is not there yet comes behind those that are. -/
theorem put_eq_append {name : String} {members : List (String × Value)}
    (h : name ∉ members.map Prod.fst) (v : Value) :
    Value.put name v members = members ++ [(name, v)] := by
  induction members with
  | nil => rfl
  | cons m members ih =>
    obtain ⟨key, old⟩ := m
    simp only [List.map_cons, List.mem_cons, not_or] at h
    simp [Value.put, Ne.symm h.1, ih h.2]

/-- The text of a member. -/
def memberText (m : String × Value) : List Char := printText m.1.toList ++ ':' :: ' ' :: print m.2

theorem printMembers_cons (m : String × Value) (members : List (String × Value)) :
    printMembers (m :: members) = memberText m :: printMembers members := by
  rw [printMembers, memberText]

/-- How an object goes on behind a member. -/
def afterMember (fuel depth : Nat) (done : List (String × Value)) (rest : List Char) :
    Except ParseError (Value × List Char) :=
  match skipSpace rest with
  | '}' :: tail => .ok (.obj done, tail)
  | ',' :: tail => membersFrom fuel depth done (skipSpace tail)
  | _ => .error .malformed

/-- A member is read off the head of a text. -/
theorem membersFrom_memberText {fuel n : Nat} {done : List (String × Value)} {m : String × Value}
    (hnew : m.1 ∉ done.map Prod.fst) (hlegible : Legible n m.2) (h : ReadsBack n m.2)
    {rest : List Char} (hfuel : (memberText m).length ≤ fuel) (hrest : Follows rest) :
    membersFrom (fuel + 1) n done (memberText m ++ rest) =
      afterMember fuel n (done ++ [m]) rest := by
  have hcolon : skipSpace (':' :: ' ' :: (print m.2 ++ rest)) =
      ':' :: ' ' :: (print m.2 ++ rest) := rfl
  have hskip : skipSpace (' ' :: (print m.2 ++ rest)) = print m.2 ++ rest :=
    hlegible.skipSpace_print rest
  have hlength : (print m.2).length ≤ fuel := by
    simp only [memberText, List.length_append, List.length_cons] at hfuel
    omega
  have hread := h fuel rest hlength hrest
  simp only [memberText, printText, List.cons_append, List.append_assoc, List.nil_append,
    membersFrom, textBody_flatMap, hcolon, hskip, hread, String.ofList_toList, put_eq_append hnew]
  rfl

/-- The members of an object are read one by one, and come behind those that are there. -/
theorem membersFrom_print {n : Nat} {m : String × Value} {members : List (String × Value)}
    (hlegible : ∀ e ∈ m :: members, Legible n e.2) (h : ∀ e ∈ m :: members, ReadsBack n e.2)
    (done : List (String × Value)) {fuel : Nat} (rest : List Char)
    (hnames : ((done ++ m :: members).map Prod.fst).Nodup)
    (hfuel : (Value.commaSeparated (printMembers (m :: members))).length ≤ fuel) :
    membersFrom (fuel + 1) n done
        (Value.commaSeparated (printMembers (m :: members)) ++ '}' :: rest) =
      .ok (.obj (done ++ m :: members), rest) := by
  have hnew : m.1 ∉ done.map Prod.fst := fun hmem => by
    rw [List.map_append] at hnames
    exact (List.nodup_append.1 hnames).2.2 _ hmem _ (by simp) rfl
  induction members generalizing m done fuel with
  | nil =>
    have htext : Value.commaSeparated (printMembers [m]) = memberText m := by
      rw [printMembers_cons]
      simp [printMembers, Value.commaSeparated]
    rw [htext] at hfuel ⊢
    exact membersFrom_memberText hnew (hlegible m (by simp)) (h m (by simp)) hfuel
      (.cons (by simp) rest)
  | cons next members ih =>
    let others := Value.commaSeparated (printMembers (next :: members)) ++ '}' :: rest
    have htext : Value.commaSeparated (printMembers (m :: next :: members)) =
        memberText m ++ ',' :: ' ' :: Value.commaSeparated (printMembers (next :: members)) := by
      rw [printMembers_cons, commaSeparated_cons _ (by simp [printMembers_cons])]
    rw [htext, List.length_append, List.length_cons, List.length_cons] at hfuel
    cases fuel with
    | zero => omega
    | succ fuel =>
      have hread := membersFrom_memberText hnew (hlegible m (by simp)) (h m (by simp))
        (show (memberText m).length ≤ fuel + 1 by omega)
        (.cons (by simp) _ : Follows (',' :: ' ' :: others))
      have hskip : skipSpace (' ' :: others) = others := by
        simp only [others, printMembers_cons]
        exact skipSpace_commaSeparated rfl _ _
      have hnext : next.1 ∉ (done ++ [m]).map Prod.fst := fun hmem => by
        rw [List.append_cons, List.map_append] at hnames
        exact (List.nodup_append.1 hnames).2.2 _ hmem _ (by simp) rfl
      calc membersFrom (fuel + 1 + 1) n done
            (Value.commaSeparated (printMembers (m :: next :: members)) ++ '}' :: rest)
          = membersFrom (fuel + 1) n (done ++ [m]) others := by
            rw [htext]
            simp only [List.append_assoc, List.cons_append]
            exact hread.trans (congrArg (membersFrom (fuel + 1) n (done ++ [m])) hskip)
        _ = .ok (.obj (done ++ m :: next :: members), rest) := by
            rw [ih (fun v hv => hlegible v (List.mem_cons_of_mem _ hv))
              (fun v hv => h v (List.mem_cons_of_mem _ hv)) (done ++ [m]) (by simpa using hnames)
              (by omega) hnext]
            simp

theorem readsBack_obj {n : Nat} {members : List (String × Value)}
    (hnames : (members.map Prod.fst).Nodup) (hlegible : ∀ m ∈ members, Legible n m.2)
    (h : ∀ m ∈ members, ReadsBack n m.2) : ReadsBack (n + 1) (.obj members) := by
  intro fuel rest hfuel _
  cases fuel with
  | zero => simp [print] at hfuel
  | succ fuel =>
    simp only [print, List.length_cons, List.length_append, List.length_nil] at hfuel
    cases members with
    | nil => rfl
    | cons m members =>
      obtain ⟨fuel, rfl⟩ := Nat.exists_eq_succ_of_ne_zero (show fuel ≠ 0 by omega)
      have hread : membersFrom (fuel + 1) n []
          (Value.commaSeparated (printMembers (m :: members)) ++ '}' :: rest) =
            .ok (.obj (m :: members), rest) :=
        membersFrom_print hlegible h [] rest hnames (by omega)
      obtain ⟨tail, htail⟩ := exists_commaSeparated_cons (memberText m) (printMembers members)
      simp only [print, List.cons_append, List.append_assoc, List.nil_append]
      rw [printMembers_cons, htail] at hread ⊢
      exact hread

/-- What is legible is read off the head of a text. -/
theorem Legible.readsBack {n : Nat} {v : Value} (h : Legible n v) : ReadsBack n v := by
  induction h with
  | null n =>
    intro fuel rest hfuel _
    cases fuel with
    | zero => simp [print] at hfuel
    | succ fuel => rfl
  | bool n b =>
    intro fuel rest hfuel _
    cases fuel with
    | zero => cases b <;> simp [print] at hfuel
    | succ fuel => cases b <;> rfl
  | int n h => exact readsBack_int n h
  | str n s => exact readsBack_str n s
  | arr hlegible ih => exact readsBack_arr hlegible ih
  | obj hnames hlegible ih => exact readsBack_obj hnames hlegible ih

/-- **A legible value is read back from its text.** -/
theorem Legible.ofText_toText {v : Value} (h : Legible maxDepth v) {text : String}
    (ht : toText v = .ok text) : ofText text = .ok v := by
  rw [h.toText_eq] at ht
  obtain rfl := Except.ok.inj ht
  have hread := h.readsBack ((print v).length + 1) [] (Nat.le_succ _) .nil
  have hskip := h.skipSpace_print []
  rw [List.append_nil] at hread hskip
  rw [ofText, String.toList_ofList, parse, hskip, hread]
  rfl

end Json

end RingScan
