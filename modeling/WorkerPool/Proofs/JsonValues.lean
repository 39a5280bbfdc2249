import WorkerPool.Proofs.JsonGrammar
import Mathlib.Data.List.DropRight

/-!
Values that are skipped.

Every well-formed value is skipped up to its end, however deep it is nested. The fuel counts items
and levels, of which a text has no more than it has characters.
-/
namespace WorkerPool.Json

variable {b cs t ts v rest name : List Char} {c : Char} {fuel : Nat}

/-- A value is told from the end of an array by its first character. -/
theorem IsValue.head (h : IsValue v) : ∃ c cs, v = c :: cs ∧ isBlank c = false ∧ c ≠ ']' := by
  have digit {d : Char} (hd : d.isDigit) : isBlank d = false ∧ d ≠ ']' := by
    refine ⟨isBlank_of_isDigit hd, ?_⟩
    rintro rfl
    cases hd
  cases h with
  | word hw =>
    simp only [List.mem_cons, List.not_mem_nil, or_false] at hw
    rcases hw with rfl | rfl | rfl <;> exact ⟨_, _, rfl, rfl, by decide⟩
  | number hn =>
    obtain ⟨hsign, hw, -, -⟩ := hn
    simp only [List.mem_cons, List.not_mem_nil, or_false] at hsign
    rcases hsign with rfl | rfl
    · cases hw with
      | zero => exact ⟨_, _, rfl, rfl, by decide⟩
      | digits hd _ _ => exact ⟨_, _, rfl, digit hd⟩
    · exact ⟨_, _, rfl, rfl, by decide⟩
  | string _ => exact ⟨_, _, rfl, rfl, by decide⟩
  | array _ ht => cases ht <;> exact ⟨_, _, rfl, rfl, by decide⟩
  | object _ _ ht => cases ht <;> exact ⟨_, _, rfl, rfl, by decide⟩

theorem readColon_append (hb : Blanks b) (cs : List Char) :
    readColon (b ++ ':' :: cs) = .ok cs := by
  rw [readColon, skipBlanks_append hb, skipBlanks_cons rfl]
  rfl

theorem skipBlanks_idem (cs : List Char) : skipBlanks (skipBlanks cs) = skipBlanks cs :=
  List.dropWhile_idempotent _ _

theorem skipValue_skipBlanks (cs : List Char) :
    skipValue fuel (skipBlanks cs) = skipValue fuel cs := by
  cases fuel with
  | zero => rfl
  | succ fuel => rw [skipValue, skipValue, skipBlanks_idem]

theorem skipValue_blanks (hb : Blanks b) (cs : List Char) :
    skipValue fuel (b ++ cs) = skipValue fuel cs := by
  rw [← skipValue_skipBlanks, skipBlanks_append hb, skipValue_skipBlanks]

theorem skipItems_skipBlanks (cs : List Char) :
    skipItems fuel (skipBlanks cs) = skipItems fuel cs := by
  cases fuel with
  | zero => rfl
  | succ fuel => rw [skipItems, skipItems, skipValue_skipBlanks]

theorem skipMembers_skipBlanks (cs : List Char) :
    skipMembers fuel (skipBlanks cs) = skipMembers fuel cs := by
  cases fuel with
  | zero => rfl
  | succ fuel => rw [skipMembers, skipMembers, skipBlanks_idem]

/-- An array that does not end at once has items. -/
theorem skipValue_items (h : skipBlanks cs = c :: t) (hc : c ≠ ']') :
    skipValue (fuel + 1) ('[' :: cs) = skipItems fuel cs := by
  rw [skipValue, skipBlanks_cons rfl, ← skipItems_skipBlanks cs]
  simp only [h]
  split <;> simp_all

theorem skipValue_members (h : skipBlanks cs = '"' :: t) :
    skipValue (fuel + 1) ('\x7b' :: cs) = skipMembers fuel cs := by
  rw [skipValue, skipBlanks_cons rfl, ← skipMembers_skipBlanks cs]
  simp only [h]
  rfl

/-- With as much fuel as the value has characters, the value is skipped. -/
def Skips (v : List Char) : Prop :=
  ∀ fuel rest, v.length ≤ fuel → Ended rest → skipValue fuel (v ++ rest) = .ok rest

theorem Skips.padded (skips : Skips v) (ht : Padded v t) (hfuel : t.length ≤ fuel)
    (ended : Ended rest) : ∃ b, Blanks b ∧ skipValue fuel (t ++ rest) = .ok (b ++ rest) := by
  obtain ⟨hb, hb'⟩ := ht
  simp only [List.length_append] at hfuel
  refine ⟨_, hb', ?_⟩
  rw [List.append_assoc, List.append_assoc, skipValue_blanks hb]
  exact skips _ _ (by omega) (ended.blanks hb')

theorem skips_word {w : String} (hw : w ∈ ["null", "true", "false"]) : Skips w.toList := by
  intro fuel rest hfuel _
  cases fuel with
  | zero =>
    simp only [List.mem_cons, List.not_mem_nil, or_false] at hw
    rcases hw with rfl | rfl | rfl <;> cases hfuel
  | succ fuel =>
    simp only [List.mem_cons, List.not_mem_nil, or_false] at hw
    rcases hw with rfl | rfl | rfl
    · exact readWord_append "ull".toList rest
    · exact readWord_append "rue".toList rest
    · exact readWord_append "alse".toList rest

theorem skips_string (h : Quoted t) : Skips ('"' :: (t ++ ['"'])) := by
  intro fuel rest hfuel _
  cases fuel with
  | zero => cases hfuel
  | succ fuel =>
    rw [List.cons_append, List.append_assoc, skipValue, skipBlanks_cons rfl]
    exact h.skip rest

theorem skipValue_digit (hd : c.isDigit) :
    skipValue (fuel + 1) (c :: cs) = skipNumber (c :: cs) := by
  rw [skipValue, skipBlanks_cons (isBlank_of_isDigit hd)]
  have hc : ∀ e : Char, e.isDigit = false → c ≠ e := by
    rintro e he rfl
    simp [hd] at he
  split <;> simp_all

theorem skips_number {n : List Char} (h : Numeral n) : Skips n := by
  intro fuel rest hfuel ended
  obtain ⟨hsign, hw, hf, hx⟩ := h
  have number := hw.skipNumber hf hx ended
  obtain ⟨d, ds, rfl, hd⟩ := hw.head
  cases fuel with
  | zero => simp at hfuel
  | succ fuel =>
    rw [List.append_assoc, List.append_assoc, List.append_assoc]
    simp only [List.mem_cons, List.not_mem_nil, or_false] at hsign
    rcases hsign with rfl | rfl
    · exact (skipValue_digit hd).trans number
    · rw [skipValue, List.cons_append, skipBlanks_cons rfl]
      exact number

/-- A padded value does not begin with the end of an array. -/
theorem Padded.first (ht : Padded v t) (hv : IsValue v) (rest : List Char) :
    ∃ c cs, skipBlanks (t ++ rest) = c :: cs ∧ c ≠ ']' := by
  obtain ⟨hb, -⟩ := ht
  obtain ⟨c, cs, rfl, hblank, hc⟩ := hv.head
  rw [List.append_assoc, skipBlanks_append hb, List.append_assoc, List.cons_append,
    skipBlanks_cons hblank]
  exact ⟨_, _, rfl, hc⟩

theorem Separated.first_item {items : List (List Char)} (h : Separated Padded items ts)
    (values : ∀ v ∈ items, IsValue v) (rest : List Char) :
    ∃ c cs, skipBlanks (ts ++ rest) = c :: cs ∧ c ≠ ']' := by
  cases h with
  | one ht => exact ht.first (values _ List.mem_cons_self) rest
  | more ht _ =>
    rw [List.append_assoc]
    exact ht.first (values _ List.mem_cons_self) _

/-- An item is skipped, and then what is after it. -/
theorem skipItems_padded (skips : Skips v) (ht : Padded v t) (hfuel : t.length ≤ fuel)
    (ended : Ended rest) : skipItems (fuel + 1) (t ++ rest) =
      match skipBlanks rest with
      | [] => .error .truncated
      | ',' :: cs => skipItems fuel cs
      | ']' :: cs => .ok cs
      | _ => .error .malformed := by
  obtain ⟨b, hb, hskip⟩ := skips.padded ht hfuel ended
  simp only [skipItems, hskip, bind, Except.bind, skipBlanks_append hb]
  rfl

/-- Items are skipped up to the end of the array. -/
theorem skipItems_separated {items : List (List Char)} (h : Separated Padded items ts)
    (skips : ∀ v ∈ items, Skips v) (hfuel : ts.length < fuel) (rest : List Char) :
    skipItems fuel (ts ++ ']' :: rest) = .ok rest := by
  induction h generalizing fuel with
  | one ht =>
    cases fuel with
    | zero => cases hfuel
    | succ fuel =>
      have skips := List.forall_mem_singleton.mp skips
      rw [skipItems_padded skips ht (Nat.le_of_lt_succ hfuel) (ended_cons (by simp)),
        skipBlanks_cons rfl]
      rfl
  | @more v items t ts ht _ ih =>
    simp only [List.length_append, List.length_cons] at hfuel
    cases fuel with
    | zero => cases hfuel
    | succ fuel =>
      obtain ⟨skips, later⟩ := List.forall_mem_cons.mp skips
      have hlen : t.length ≤ fuel := by omega
      rw [List.append_assoc, List.cons_append,
        skipItems_padded skips ht hlen (ended_cons (by simp)), skipBlanks_cons rfl]
      exact ih later (by omega)

/-- A member, once the blanks before it are skipped. -/
theorem Member.opens (h : Member name v t) (rest : List Char) :
    ∃ b b' b'', Blanks b ∧ Blanks b' ∧ Blanks b'' ∧ v.length < t.length ∧
      skipBlanks (t ++ rest) =
        '"' :: (name ++ '"' :: (b ++ ':' :: (b' ++ (v ++ (b'' ++ rest))))) := by
  obtain ⟨hb, hb', hp⟩ := h
  obtain ⟨hc, hc'⟩ := hp
  refine ⟨_, _, _, hb, hb', hc', ?_, ?_⟩
  · simp only [List.length_append, List.length_cons]
    omega
  · simp only [List.append_assoc, List.cons_append]
    rw [skipBlanks_append hc, skipBlanks_cons rfl]

theorem Separated.first_member {members : List (List Char × List Char)}
    (h : Separated (fun m => Member m.1 m.2) members ts) (rest : List Char) :
    ∃ cs, skipBlanks (ts ++ rest) = '"' :: cs := by
  cases h with
  | one ht =>
    obtain ⟨_, _, _, -, -, -, -, hopens⟩ := ht.opens rest
    exact ⟨_, hopens⟩
  | more ht _ =>
    rw [List.append_assoc]
    obtain ⟨_, _, _, -, -, -, -, hopens⟩ := ht.opens _
    exact ⟨_, hopens⟩

/-- A member is skipped, and then what is after it. -/
theorem skipMembers_member (skips : Skips v) (hname : Quoted name) (ht : Member name v t)
    (hfuel : t.length ≤ fuel) (ended : Ended rest) : skipMembers (fuel + 1) (t ++ rest) =
      match skipBlanks rest with
      | [] => .error .truncated
      | ',' :: cs => skipMembers fuel cs
      | '\x7d' :: cs => .ok cs
      | _ => .error .malformed := by
  obtain ⟨b, b', b'', hb, hb', hb'', hlen, hopens⟩ := ht.opens rest
  have hvalue := skips fuel _ (by omega) (ended.blanks hb'')
  simp only [skipMembers, hopens, hname.skip, readColon_append hb, bind, Except.bind,
    skipValue_blanks hb', hvalue, skipBlanks_append hb'']
  rfl

theorem skipMembers_separated {members : List (List Char × List Char)}
    (h : Separated (fun m => Member m.1 m.2) members ts) (names : ∀ m ∈ members, Quoted m.1)
    (skips : ∀ m ∈ members, Skips m.2) (hfuel : ts.length < fuel) (rest : List Char) :
    skipMembers fuel (ts ++ '\x7d' :: rest) = .ok rest := by
  induction h generalizing fuel with
  | one ht =>
    cases fuel with
    | zero => cases hfuel
    | succ fuel =>
      have hname := List.forall_mem_singleton.mp names
      have skips := List.forall_mem_singleton.mp skips
      rw [skipMembers_member skips hname ht (Nat.le_of_lt_succ hfuel) (ended_cons (by simp)),
        skipBlanks_cons rfl]
      rfl
  | @more m members t ts ht _ ih =>
    simp only [List.length_append, List.length_cons] at hfuel
    cases fuel with
    | zero => cases hfuel
    | succ fuel =>
      obtain ⟨hname, names⟩ := List.forall_mem_cons.mp names
      obtain ⟨skips, later⟩ := List.forall_mem_cons.mp skips
      have hlen : t.length ≤ fuel := by omega
      rw [List.append_assoc, List.cons_append,
        skipMembers_member skips hname ht hlen (ended_cons (by simp)), skipBlanks_cons rfl]
      exact ih names later (by omega)

theorem skips_array {items : List (List Char)} (ht : Bracketed Padded '[' ']' items t)
    (values : ∀ v ∈ items, IsValue v) (skips : ∀ v ∈ items, Skips v) : Skips t := by
  intro fuel rest hfuel _
  cases fuel with
  | zero => cases ht <;> cases hfuel
  | succ fuel =>
    cases ht with
    | empty hb =>
      rw [List.cons_append, List.append_assoc, skipValue, skipBlanks_cons rfl]
      simp only [skipBlanks_append hb]
      rw [List.cons_append, skipBlanks_cons rfl]
      rfl
    | full h =>
      simp only [List.length_append, List.length_cons, List.length_nil] at hfuel
      rw [List.cons_append, List.append_assoc, List.cons_append, List.nil_append]
      obtain ⟨c, cs, hc, hne⟩ := h.first_item values (']' :: rest)
      rw [skipValue_items hc hne]
      exact skipItems_separated h skips (by omega) rest

theorem skips_object {members : List (List Char × List Char)}
    (ht : Bracketed (fun m => Member m.1 m.2) '\x7b' '\x7d' members t)
    (names : ∀ m ∈ members, Quoted m.1) (skips : ∀ m ∈ members, Skips m.2) : Skips t := by
  intro fuel rest hfuel _
  cases fuel with
  | zero => cases ht <;> cases hfuel
  | succ fuel =>
    cases ht with
    | empty hb =>
      rw [List.cons_append, List.append_assoc, skipValue, skipBlanks_cons rfl]
      simp only [skipBlanks_append hb]
      rw [List.cons_append, skipBlanks_cons rfl]
      rfl
    | full h =>
      simp only [List.length_append, List.length_cons, List.length_nil] at hfuel
      rw [List.cons_append, List.append_assoc, List.cons_append, List.nil_append]
      obtain ⟨cs, hquote⟩ := h.first_member ('\x7d' :: rest)
      rw [skipValue_members hquote]
      exact skipMembers_separated h names skips (by omega) rest

theorem IsValue.skips (h : IsValue v) : Skips v := by
  induction h with
  | word hw => exact skips_word hw
  | number hn => exact skips_number hn
  | string hs => exact skips_string hs
  | array values ht ih => exact skips_array ht values ih
  | object names _ ht ih => exact skips_object ht names ih

/-- A well-formed value is skipped, whatever follows that is not part of it. -/
theorem IsValue.skip (h : IsValue v) (hb : Blanks b) (ended : Ended rest) :
    Json.skip (b ++ (v ++ rest)) = .ok rest := by
  rw [Json.skip, skipValue_blanks hb]
  refine h.skips _ _ ?_ ended
  simp only [List.length_append]
  omega

end WorkerPool.Json
