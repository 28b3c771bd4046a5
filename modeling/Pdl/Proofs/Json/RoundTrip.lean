import Pdl.Json.Reading
import Pdl.Proofs.Text.Digits

/-!
# Printed values are read back

A value is read back from its printed form, whatever stands behind it
(`value?_print`), so the text of a value holds that value (`read?_text`).

The induction is on the value.  What carries it: the printed form of a value begins
with a character that is neither space nor a closing bracket, and no digit follows it
where it is a member of another value.  The bound on the nesting is met by any number
past the length of the printed form, for each level takes a character.
-/

namespace Pdl.Json

/-! ## Strings -/

theorem stringBody_cons {c : Char} (hquote : c ≠ '"') (hbackslash : c ≠ '\\')
    (hcontrol : ¬ c.toNat < 0x20) (cs : List Char) :
    stringBody (c :: cs) = (stringBody cs).map fun (s, r) => (c :: s, r) := by
  rw [stringBody, if_neg hquote, if_neg hbackslash, if_neg hcontrol]

theorem stringBody_escape {e : Char} {cs r : List Char} (h : escape? cs = some (e, r)) :
    stringBody ('\\' :: cs) = (stringBody r).map fun (s, r) => (e :: s, r) := by
  rw [stringBody, if_neg (by decide), if_pos rfl]
  split
  · rename_i hescape
    rw [h] at hescape
    cases hescape
    rfl
  · rename_i hescape
    rw [h] at hescape
    cases hescape

theorem hexValue?_digitChar : ∀ n < 16, hexValue? (Nat.digitChar n) = some n := by decide

/-- A control character is read back from its number. -/
theorem codePoint?_fourHexDigits {c : Char} (hc : c.toNat < 0x20) (r : List Char) :
    codePoint? (fourHexDigits c.toNat ++ r) = some (c, r) := by
  have hzero : hexValue? '0' = some 0 := by decide
  have hnumber : hexNumber? 4 (fourHexDigits c.toNat ++ r) = some (c.toNat, r) := by
    have hfour := hexNumber?_four hzero hzero (hexValue?_digitChar (c.toNat / 16) (by omega))
      (hexValue?_digitChar (c.toNat % 16) (by omega)) r
    refine hfour.trans ?_
    congr 2
    omega
  have hvalid : c.toNat.isValidChar := c.valid
  simp only [codePoint?, hnumber, Option.bind_eq_bind, Option.bind_some]
  rw [if_neg (by omega), if_pos hvalid, Char.ofNat_toNat]

/-- A character of a string is read back from its printed form. -/
theorem stringBody_escapeChar (c : Char) (cs : List Char) :
    stringBody (escapeChar c ++ cs) = (stringBody cs).map fun (s, r) => (c :: s, r) := by
  fun_cases escapeChar c with
  | case8 => exact stringBody_escape (codePoint?_fourHexDigits (by assumption) cs)
  | case9 => exact stringBody_cons (by assumption) (by assumption) (by assumption) cs
  | _ =>
    subst_vars
    exact stringBody_escape rfl

theorem stringBody_flatMap_escapeChar (s r : List Char) :
    stringBody (s.flatMap escapeChar ++ '"' :: r) = some (s, r) := by
  induction s with
  | nil => rw [List.flatMap_nil, List.nil_append, stringBody, if_pos rfl]
  | cons c s ih =>
    rw [List.flatMap_cons, List.append_assoc, stringBody_escapeChar, ih]
    rfl

theorem string?_printString (s : String) (r : List Char) :
    string? (printString s ++ r) = some (s, r) := by
  have hbody := stringBody_flatMap_escapeChar s.toList r
  simp [string?, printString, after?, hbody]

/-! ## Numbers -/

theorem number?_toDigits {r : List Char} (hr : ∀ c ∈ r.head?, c.isDigit = false) (n : Nat) :
    number? (Nat.toDigits 10 n ++ r) = some (n, r) := by
  have hvalue : digitsNumber (Nat.toDigits 10 n) = n := ofDigitChars_toDigits n
  rw [number?, takeWhile_toDigits hr, dropWhile_toDigits hr]
  split
  · rename_i hnil
    exact absurd hnil Nat.toDigits_ne_nil
  · rename_i d ds hdigits
    by_cases hn : n = 0
    · subst hn
      cases hdigits
    · obtain ⟨e, es, hes, he⟩ := exists_toDigits_eq_cons hn
      rw [hes] at hdigits
      exact absurd (List.cons_eq_cons.1 hdigits).1 he
  · rw [hvalue]

/-! ## Members -/

theorem skipSpace_newline (depth : Nat) (cs : List Char) :
    skipSpace (newline depth ++ cs) = skipSpace cs := by
  rw [newline, List.cons_append, skipSpace]
  induction 2 * depth with
  | zero => rfl
  | succ n ih => rw [List.replicate_succ, List.cons_append, skipSpace, ih]

/-- Whether a printed form begins as one of a value or a member does: not with space and not
with a closing bracket. -/
def Begins (cs : List Char) : Prop := ∃ c r, cs = c :: r ∧ c ∉ [' ', '\t', '\n', '\r', ']', '\x7d']

theorem Begins.append {cs : List Char} (h : Begins cs) (r : List Char) : Begins (cs ++ r) := by
  obtain ⟨c, cs, rfl, hc⟩ := h
  exact ⟨c, cs ++ r, rfl, hc⟩

theorem Begins.skipSpace_eq {cs : List Char} (h : Begins cs) : skipSpace cs = cs := by
  obtain ⟨c, cs, rfl, hc⟩ := h
  simp only [List.mem_cons, List.not_mem_nil, or_false, not_or] at hc
  exact skipSpace.eq_5 _ (by grind) (by grind) (by grind) (by grind)

theorem printItems_eq (depth : Nat) (vs : List Json) :
    printItems depth vs = vs.flatMap fun v => ',' :: newline depth ++ print depth v := by
  induction vs with
  | nil => rfl
  | cons v vs ih => rw [printItems, ih, List.flatMap_cons]

theorem printMembers_eq (depth : Nat) (ms : List (String × Json)) :
    printMembers depth ms = ms.flatMap fun m => ',' :: newline depth ++ printMember depth m := by
  induction ms with
  | nil => rfl
  | cons m ms ih => rw [printMembers, ih, List.flatMap_cons]

section

variable {α : Type} {close : Char} {member : List Char → Option (α × List Char)}
  {out : α → List Char}

theorem membersWithin_last {n : Nat} {cs r r' : List Char} {a : α}
    (ha : member (skipSpace cs) = some (a, r)) (hr : skipSpace r = close :: r')
    (hclose : close ≠ ',') : membersWithin close member (n + 1) cs = some ([a], r') := by
  simp [membersWithin, ha, hr, hclose, after?]

theorem membersWithin_comma {n : Nat} {cs r r' : List Char} {a : α} {as : List α}
    (ha : member (skipSpace cs) = some (a, ',' :: r))
    (has : membersWithin close member n r = some (as, r')) :
    membersWithin close member (n + 1) cs = some (a :: as, r') := by
  simp [membersWithin, ha, has, skipSpace]

/-- Members are read back from their printed forms if each of them is. -/
theorem membersWithin_print (hclose : close ∉ [' ', '\t', '\n', '\r', ','])
    (depth depth' : Nat) (r : List Char) {a : α} {as : List α}
    (hbegins : ∀ x ∈ a :: as, Begins (out x))
    (hread : ∀ x ∈ a :: as, ∀ c r, c.isDigit = false → member (out x ++ c :: r) = some (x, c :: r))
    {n : Nat} (hn : as.length < n) :
    membersWithin close member n (newline depth ++ (out a
        ++ (as.flatMap (fun x => ',' :: newline depth ++ out x) ++ (newline depth' ++ close :: r))))
      = some (a :: as, r) := by
  obtain ⟨n, rfl⟩ := Nat.exists_eq_add_one_of_ne_zero (Nat.ne_zero_of_lt hn)
  induction as generalizing a n with
  | nil =>
    have hspace : skipSpace (newline depth' ++ close :: r) = close :: r := by
      rw [skipSpace_newline]
      simp only [List.mem_cons, List.not_mem_nil, or_false, not_or] at hclose
      exact skipSpace.eq_5 _ (by grind) (by grind) (by grind) (by grind)
    refine membersWithin_last ?_ hspace (fun h => hclose (by simp [h]))
    rw [skipSpace_newline, ((hbegins a (.head _)).append _).skipSpace_eq]
    exact hread a (.head _) '\n' _ (by decide)
  | cons b as ih =>
    obtain ⟨n, rfl⟩ := Nat.exists_eq_add_one_of_ne_zero
      (Nat.ne_zero_of_lt (Nat.lt_of_succ_lt_succ hn))
    have hrest := ih (fun x hx => hbegins x (.tail _ hx)) (fun x hx => hread x (.tail _ hx)) n
      (Nat.lt_of_succ_lt_succ hn)
    refine membersWithin_comma ?_ hrest
    rw [skipSpace_newline, ((hbegins a (.head _)).append _).skipSpace_eq]
    simpa using hread a (.head _) ',' _ (by decide)

/-- No member is longer than the list that it stands in. -/
theorem length_out_le (out : α → List Char) {a x : α} {as : List α} (hx : x ∈ a :: as)
    (depth : Nat) :
    (out x).length
      ≤ (out a ++ as.flatMap fun x => ',' :: newline depth ++ out x).length := by
  rw [List.length_append]
  rcases List.mem_cons.1 hx with rfl | hx
  · exact Nat.le_add_right _ _
  · obtain ⟨bs, cs, rfl⟩ := List.append_of_mem hx
    simp only [List.flatMap_append, List.flatMap_cons, List.length_append, List.length_cons]
    omega

/-- A list of members is read back, closed behind a line of its own. -/
theorem members?_print (hclose : close = ']' ∨ close = '\x7d') (depth depth' : Nat) (r : List Char)
    {a : α} {as : List α} (hbegins : ∀ x ∈ a :: as, Begins (out x))
    (hread : ∀ x ∈ a :: as, ∀ c r, c.isDigit = false →
      member (out x ++ c :: r) = some (x, c :: r)) :
    members? close member (newline depth ++ (out a
        ++ (as.flatMap (fun x => ',' :: newline depth ++ out x) ++ (newline depth' ++ close :: r))))
      = some (a :: as, r) := by
  have hopen : after? close (skipSpace (newline depth ++ (out a
      ++ (as.flatMap (fun x => ',' :: newline depth ++ out x) ++ (newline depth' ++ close :: r)))))
      = none := by
    have ha := (hbegins a (.head _)).append
      (as.flatMap (fun x => ',' :: newline depth ++ out x) ++ (newline depth' ++ close :: r))
    rw [skipSpace_newline, ha.skipSpace_eq]
    obtain ⟨c, cs, hcs, hc⟩ := ha
    rw [hcs, after?, if_neg]
    rcases hclose with rfl | rfl <;> rintro rfl <;> exact hc (by decide)
  have hlength : as.length ≤ (as.flatMap fun x => ',' :: newline depth ++ out x).length := by
    clear hbegins hread hopen
    induction as with
    | nil => exact Nat.zero_le _
    | cons b as ih =>
      simp only [List.flatMap_cons, List.length_append, List.length_cons]
      omega
  have hclose' : close ∉ [' ', '\t', '\n', '\r', ','] := by
    rcases hclose with rfl | rfl <;> decide
  rw [members?, hopen]
  refine membersWithin_print hclose' depth depth' r hbegins hread ?_
  have hnewline : 0 < (newline depth).length := Nat.succ_pos _
  simp only [List.length_append, List.length_cons]
  omega

end

/-! ## Values -/

/-- Induction on a value by way of its members. -/
theorem induction_members {P : Json → Prop} (null : P null) (bool : ∀ b, P (bool b))
    (number : ∀ n, P (number n)) (string : ∀ s, P (string s))
    (array : ∀ vs, (∀ v ∈ vs, P v) → P (array vs))
    (object : ∀ ms, (∀ m ∈ ms, P m.2) → P (object ms)) (v : Json) : P v :=
  @Json.rec P (fun vs => ∀ v ∈ vs, P v) (fun ms => ∀ m ∈ ms, P m.2) (fun m => P m.2)
    null bool number string array object
    (fun _ h => nomatch h) (fun _ _ hv hvs => List.forall_mem_cons.2 ⟨hv, hvs⟩)
    (fun _ h => nomatch h) (fun _ _ hm hms => List.forall_mem_cons.2 ⟨hm, hms⟩)
    (fun _ _ hv => hv) v

theorem printMember_eq (depth : Nat) (m : String × Json) :
    printMember depth m = printString m.1 ++ [':', ' '] ++ m.2.print depth := by
  obtain ⟨key, v⟩ := m
  rw [printMember]

theorem begins_printString (s : String) : Begins (printString s) := ⟨'"', _, rfl, by decide⟩

theorem begins_printMember (depth : Nat) (m : String × Json) : Begins (printMember depth m) := by
  rw [printMember_eq]
  exact ((begins_printString m.1).append _).append _

theorem begins_print (depth : Nat) (v : Json) : Begins (v.print depth) := by
  cases v with
  | null => exact ⟨'n', _, rfl, by decide⟩
  | bool b => cases b <;> exact ⟨_, _, rfl, by decide⟩
  | number n =>
    obtain ⟨d, ds, hds, hd, -⟩ := exists_digits n
    refine ⟨d, ds, by simpa [print] using hds, ?_⟩
    intro hmem
    have hdigit : ∀ c ∈ [' ', '\t', '\n', '\r', ']', '\x7d'], c.isDigit = false := by
      simp [Char.isDigit]
    rw [hdigit d hmem] at hd
    cases hd
  | string s => exact begins_printString s
  | array vs => cases vs <;> exact ⟨'[', _, rfl, by decide⟩
  | object ms => cases ms <;> exact ⟨'\x7b', _, rfl, by decide⟩

theorem value?_number {d : Char} (hd : d.isDigit = true) (n : Nat) (cs : List Char) :
    value? (n + 1) (d :: cs) = (number? (d :: cs)).map fun (n, r) => (.number n, r) := by
  have hne : ∀ c, c.isDigit = false → d ≠ c := by
    rintro c hc rfl
    rw [hc] at hd
    cases hd
  rw [value?.eq_def]
  split
  · contradiction
  · rename_i heq
    cases heq
    split
    all_goals simp_all

theorem member?_printMember {value : List Char → Option (Json × List Char)} (m : String × Json)
    (depth : Nat) (c : Char) (r : List Char)
    (hvalue : value (m.2.print depth ++ c :: r) = some (m.2, c :: r)) :
    member? value (printMember depth m ++ c :: r) = some (m, c :: r) := by
  have hkey := string?_printString m.1 (':' :: ' ' :: (m.2.print depth ++ c :: r))
  have hspace := ((begins_print depth m.2).append (c :: r)).skipSpace_eq
  simp [member?, printMember_eq, hkey, skipSpace, after?, hspace, hvalue]

/-- A value is read back from its printed form. -/
theorem value?_print (v : Json) (depth : Nat) {n : Nat} (hn : (v.print depth).length < n)
    {r : List Char} (hr : ∀ c ∈ r.head?, c.isDigit = false) :
    value? n (v.print depth ++ r) = some (v, r) := by
  obtain ⟨n, rfl⟩ := Nat.exists_eq_add_one_of_ne_zero (Nat.ne_zero_of_lt hn)
  induction v using induction_members generalizing depth n r with
  | null => rfl
  | bool b => cases b <;> rfl
  | number m =>
    obtain ⟨d, ds, hds, hd, -⟩ := exists_digits m
    have hprint : (number m).print depth = Nat.toDigits 10 m := by simp [print]
    have hnumber := number?_toDigits hr m
    rw [hprint, hds, List.cons_append, value?_number hd, ← List.cons_append, ← hds, hnumber]
    rfl
  | string s =>
    rw [print]
    show (string? (printString s ++ r)).map _ = _
    rw [string?_printString]
    rfl
  | array vs ih =>
    cases vs with
    | nil => rfl
    | cons w ws =>
      have hprint (r : List Char) : (array (w :: ws)).print depth ++ r
          = '[' :: (newline (depth + 1) ++ (w.print (depth + 1)
            ++ (ws.flatMap (fun x => ',' :: newline (depth + 1) ++ x.print (depth + 1))
              ++ (newline depth ++ ']' :: r)))) := by
        simp [print, printItems_eq]
      have hitems : members? ']' (value? n) _ = some (w :: ws, r) :=
        members?_print (.inl rfl) (depth + 1) depth r (fun x _ => begins_print (depth + 1) x) ?_
      · rw [hprint, value?, hitems]
        rfl
      · intro x hx c r hc
        have hlength := length_out_le (print (depth + 1)) hx (depth + 1)
        have hn' := congrArg List.length (hprint [])
        simp only [List.length_append, List.length_cons, List.length_nil] at hlength hn'
        obtain ⟨n, rfl⟩ := Nat.exists_eq_add_one_of_ne_zero (n := n) (by omega)
        exact ih x hx (depth + 1) (by simpa using hc) n (by omega)
  | object ms ih =>
    cases ms with
    | nil => rfl
    | cons m ms =>
      have hprint (r : List Char) : (object (m :: ms)).print depth ++ r
          = '\x7b' :: (newline (depth + 1) ++ (printMember (depth + 1) m
            ++ (ms.flatMap (fun x => ',' :: newline (depth + 1) ++ printMember (depth + 1) x)
              ++ (newline depth ++ '\x7d' :: r)))) := by
        simp [print, printMembers_eq]
      have hmembers : members? '\x7d' (member? (value? n)) _ = some (m :: ms, r) :=
        members?_print (.inr rfl) (depth + 1) depth r
          (fun x _ => begins_printMember (depth + 1) x) ?_
      · rw [hprint, value?, hmembers]
        rfl
      · intro x hx c r hc
        have hlength := length_out_le (printMember (depth + 1)) hx (depth + 1)
        have hn' := congrArg List.length (hprint [])
        simp only [printMember_eq, List.length_append, List.length_cons, List.length_nil]
          at hlength hn'
        obtain ⟨n, rfl⟩ := Nat.exists_eq_add_one_of_ne_zero (n := n) (by omega)
        exact member?_printMember x (depth + 1) c r
          (ih x hx (depth + 1) (by simpa using hc) n (by omega))

/-- A text that prints a value holds that value. -/
theorem read?_text (v : Json) : read? v.text = some v := by
  have hvalue := value?_print v 0 (Nat.lt_succ_self _) (r := []) (by simp)
  rw [List.append_nil] at hvalue
  simp [read?, text, (begins_print 0 v).skipSpace_eq, hvalue, skipSpace]

end Pdl.Json
