import WorkerPool.Proofs.JsonValues

/-!
What is relied upon of a library for JSON text.

A visitor is led through the members of an object in the order in which they stand, whatever their
spelling and the blanks between them, and is given the counters that it wants. The format that the
program uses does so: it reads one member after the other, and knows from the commas and brackets
where the object ends.
-/
namespace WorkerPool.Json

variable {α : Type}

/-! ### Texts -/

/-- A member with a name that is a text, however the name is spelled. -/
inductive NamedMember (m : String × List Char) : List Char → Prop
  | mk {raw t : List Char} : Spells m.1.toList raw → IsValue m.2 → Member raw m.2 t →
      NamedMember m t

/-- The text is an object with these members, each with what is written for its value. -/
def ObjectText (members : List (String × List Char)) (text : String) : Prop :=
  ∃ t, Bracketed NamedMember '\x7b' '\x7d' members t ∧ Padded t text.toList

/-- The text is an array of these counters. -/
def ArrayText (counters : List UInt64) (text : String) : Prop :=
  ∃ t, Bracketed (fun n => Padded (decimal n)) '[' ']' counters t ∧ Padded t text.toList

/-- The text is a string that spells the name. -/
def NameText (name : String) (text : String) : Prop :=
  ∃ raw, Spells name.toList raw ∧ Padded ('"' :: (raw ++ ['"'])) text.toList

/-- The characters of the name stand for themselves. -/
def PlainName (name : String) : Prop := ∀ c ∈ name.toList, IsPlain c

instance : DecidablePred PlainName := fun name => List.decidableBAll IsPlain name.toList

/-! ### Laws -/

/-- Where members lead a visitor that has been given some counters. -/
inductive Visitor.Visits (v : Visitor α) :
    List (String × UInt64) → List (String × List Char) → Except Fault α → Prop
  | done {given : List (String × UInt64)} : v.Visits given [] (v.ofMembers given)
  /-- The value is of no use, whatever it is. -/
  | passed {given : List (String × UInt64)} {m : String × List Char}
      {members : List (String × List Char)} {r : Except Fault α} :
      v.wants given m.1 = .ok false → v.Visits given members r → v.Visits given (m :: members) r
  | taken {given : List (String × UInt64)} {name : String} {n : UInt64}
      {members : List (String × List Char)} {r : Except Fault α} :
      v.wants given name = .ok true → v.Visits (given ++ [(name, n)]) members r →
      v.Visits given ((name, decimal n) :: members) r
  /-- Nothing that follows matters any more. -/
  | refused {given : List (String × UInt64)} {m : String × List Char}
      {members : List (String × List Char)} {e : Fault} :
      v.wants given m.1 = .error e → v.Visits given (m :: members) (.error e)

/-- A library that writes texts without blanks and reads them as the grammar says. -/
structure Format.Lawful (json : Format) : Prop where
  /-- A record is written as an object of its fields in their order. -/
  written : ∀ fields, (∀ f ∈ fields, PlainName f.1) → json.writeRecord fields =
    "\x7b" ++ ",".intercalate (fields.map fun f => "\"" ++ f.1 ++ "\":" ++ toString f.2.toNat) ++
      "\x7d"
  /-- The members of an object are visited in the order in which they stand. -/
  object : ∀ {α : Type} {v : Visitor α} {members text r}, ObjectText members text →
    v.Visits [] members r → json.readRecord v text = r
  /-- An array has to have as many items as the visitor takes. -/
  array : ∀ {α : Type} {v : Visitor α} {counters text}, counters.length = v.size →
    ArrayText counters text → json.readRecord v text = v.ofItems counters
  nameWritten : ∀ name, PlainName name → json.writeName name = "\"" ++ name ++ "\""
  name : ∀ {α : Type} {named : String → Except Fault α} {name text}, NameText name text →
    json.readName named text = named name

variable {v : Visitor α} {given : List (String × UInt64)} {r : Except Fault α}
  {members : List (String × List Char)} {m : String × List Char} {b cs t ts rest : List Char}
  {c : Char} {first : Bool} {fuel k : Nat} {n : UInt64} {counters : List UInt64} {text : String}

theorem isValue_decimal (n : UInt64) : IsValue (decimal n) := by
  have whole : Whole (decimal n) := by
    rcases Nat.eq_zero_or_pos n.toNat with hn | hn
    · rw [decimal, hn]
      exact .zero
    · obtain ⟨d, ds, hds, hne⟩ := toDigits_head hn
      have digits := digits_toDigits n.toNat
      rw [decimal]
      rw [hds] at digits ⊢
      obtain ⟨hd, hds⟩ := List.forall_mem_cons.mp digits
      exact .digits hd hne hds
  have numeral : Numeral ([] ++ (decimal n ++ ([] ++ []))) := .mk (by simp) whole .absent .absent
  simpa using IsValue.number numeral

/-! ### Objects -/

/-- What is left of an object, or of an array, before one of its parts: the part comes first or
after a comma. -/
def lead (first : Bool) (cs : List Char) : List Char := if first then cs else ',' :: cs

theorem readMembers_blanks (hb : Blanks b) (cs : List Char) :
    readMembers v fuel first given (b ++ cs) = readMembers v fuel first given cs := by
  cases fuel with
  | zero => rfl
  | succ fuel => simp only [readMembers, nextMember, skipBlanks_append hb]

theorem nextMember_lead (h : skipBlanks cs = '"' :: t) :
    nextMember first (lead first cs) = .ok (some ('"' :: t)) := by
  cases first with
  | true => simp [lead, nextMember, h]
  | false => simp [lead, nextMember, skipBlanks_cons (c := ',') rfl, h]

/-- After a member the visitor has refused it, or goes on with what follows. -/
theorem readMembers_step (visits : v.Visits given (m :: members) r) (h : NamedMember m t)
    (ended : Ended rest) :
    (∃ e, r = .error e ∧
      readMembers v (fuel + 1) first given (lead first (t ++ rest)) = .error e) ∨
    ∃ given', v.Visits given' members r ∧
      readMembers v (fuel + 1) first given (lead first (t ++ rest)) =
        readMembers v fuel false given' rest := by
  obtain ⟨spells, value, member⟩ := h
  obtain ⟨b, b', b'', hb, hb', hb'', -, hopens⟩ := member.opens rest
  cases visits with
  | refused wants =>
    refine .inl ⟨_, rfl, ?_⟩
    simp only [readMembers, nextMember_lead hopens, spells.read, String.ofList_toList, wants, bind,
      Except.bind]
  | passed wants visits =>
    refine .inr ⟨_, visits, ?_⟩
    simp only [readMembers, nextMember_lead hopens, spells.read, String.ofList_toList, wants,
      readColon_append hb, value.skip hb' (ended.blanks hb''), readMembers_blanks hb'', bind,
      Except.bind, Bool.false_eq_true, if_false]
  | @taken _ name n _ _ wants visits =>
    have counter := readCounter_decimal n hb' (ended.blanks hb'')
    refine .inr ⟨_, visits, ?_⟩
    simp only [readMembers, nextMember_lead hopens, spells.read, String.ofList_toList, wants,
      readColon_append hb, counter, readMembers_blanks hb'', bind, Except.bind, if_true]

theorem readMembers_end (cs : List Char) :
    readMembers v (fuel + 1) false given ('\x7d' :: cs) = (v.ofMembers given).map (·, cs) := by
  rw [readMembers, nextMember, skipBlanks_cons rfl]
  cases v.ofMembers given <;> rfl

/-- The visitor gets to the end of the object, unless it refuses a member. -/
theorem readMembers_separated (visits : v.Visits given members r)
    (h : Separated NamedMember members ts) (hfuel : members.length < fuel) (rest : List Char) :
    readMembers v fuel first given (lead first (ts ++ '\x7d' :: rest)) = r.map (·, rest) := by
  induction h generalizing given first fuel with
  | @one m t ht =>
    obtain ⟨fuel, rfl⟩ : ∃ f, fuel = f + 1 + 1 := by
      rw [List.length_singleton] at hfuel
      exact ⟨fuel - 2, by omega⟩
    have ended : Ended ('\x7d' :: rest) := ended_cons (by simp)
    obtain ⟨e, rfl, hread⟩ | ⟨given', later, hread⟩ := readMembers_step visits ht ended
    · exact hread
    · cases later
      rw [hread, readMembers_end]
  | @more m members t ts ht _ ih =>
    obtain ⟨fuel, rfl⟩ : ∃ f, fuel = f + 1 := ⟨fuel - 1, by omega⟩
    rw [List.append_assoc, List.cons_append]
    have ended : Ended (',' :: (ts ++ '\x7d' :: rest)) := ended_cons (by simp)
    obtain ⟨e, rfl, hread⟩ | ⟨given', later, hread⟩ := readMembers_step visits ht ended
    · exact hread
    · rw [hread]
      change readMembers v fuel false given' (lead false _) = _
      exact ih later (Nat.lt_of_succ_lt_succ hfuel)

theorem Member.length_pos {name value : List Char} (h : Member name value t) : 0 < t.length := by
  obtain ⟨_, _, _, -, -, -, hlen, -⟩ := h.opens []
  omega

theorem Separated.length_le (h : Separated NamedMember members ts) :
    members.length ≤ ts.length := by
  induction h with
  | one ht =>
    obtain ⟨-, -, member⟩ := ht
    exact member.length_pos
  | more ht _ ih =>
    simp only [List.length_append, List.length_cons]
    omega

/-- All members of an object are visited, with as much fuel as it has characters. -/
theorem readMembers_bracketed (visits : v.Visits [] members r)
    (h : Bracketed NamedMember '\x7b' '\x7d' members t) (rest : List Char) :
    ∃ cs, t = '\x7b' :: cs ∧
      readMembers v ((cs ++ rest).length + 1) true [] (cs ++ rest) = r.map (·, rest) := by
  cases h with
  | @empty b hb =>
    refine ⟨_, rfl, ?_⟩
    cases visits
    rw [List.append_assoc, readMembers_blanks hb, readMembers, nextMember, List.singleton_append,
      skipBlanks_cons rfl]
    cases v.ofMembers [] <;> rfl
  | @full _ ts h =>
    refine ⟨_, rfl, ?_⟩
    have fuel : members.length < (ts ++ ['\x7d'] ++ rest).length + 1 := by
      have := h.length_le
      simp only [List.length_append]
      omega
    rw [List.append_assoc] at fuel ⊢
    change readMembers v _ true [] (lead true _) = _
    exact readMembers_separated visits h fuel rest

theorem readEnd_blanks (hb : Blanks b) : readEnd b = .ok () := by
  rw [readEnd, ← List.append_nil b, skipBlanks_append hb]
  rfl

theorem readRecord_object (h : ObjectText members text) (visits : v.Visits [] members r) :
    readRecord v text = r := by
  obtain ⟨t, ht, hpad⟩ := h
  obtain ⟨b, b', hb, hb', htext⟩ := hpad.exists_blanks
  obtain ⟨cs, rfl, hread⟩ := readMembers_bracketed visits ht b'
  rw [readRecord, htext, skipBlanks_append hb, List.cons_append, skipBlanks_cons rfl]
  simp only [hread]
  cases r with
  | error e => rfl
  | ok a => simp [Except.map, readEnd_blanks hb', bind, Except.bind, pure, Except.pure]

/-! ### Arrays -/

theorem readItems_blanks (hb : Blanks b) (cs : List Char) :
    readItems k first (b ++ cs) = readItems k first cs := by
  cases k <;> simp only [readItems, skipBlanks_append hb]

theorem readItems_lead (h : skipBlanks cs = c :: t) (hc : c ≠ ']') :
    readItems (k + 1) first (lead first cs) = (do
      let (n, cs) ← readCounter (c :: t)
      let (rest, cs) ← readItems k false cs
      return (n :: rest, cs)) := by
  cases first with
  | true => simp [lead, readItems, h]
  | false => simp [lead, readItems, skipBlanks_cons (c := ',') rfl, h, hc]

theorem readItems_step (ht : Padded (decimal n) t) (ended : Ended rest) :
    readItems (k + 1) first (lead first (t ++ rest)) =
      (readItems k false rest).map fun r => (n :: r.1, r.2) := by
  obtain ⟨b, b', hb, hb', rfl⟩ := ht.exists_blanks
  obtain ⟨c, cs, hcs, hblank, hc⟩ := (isValue_decimal n).head
  have begins : skipBlanks (b ++ (decimal n ++ b') ++ rest) = c :: (cs ++ (b' ++ rest)) := by
    rw [List.append_assoc, skipBlanks_append hb, List.append_assoc, hcs, List.cons_append,
      skipBlanks_cons hblank]
  have counter : readCounter (c :: (cs ++ (b' ++ rest))) = .ok (n, b' ++ rest) := by
    rw [← List.cons_append, ← hcs]
    exact readCounter_decimal (b := []) n (by simp [Blanks]) (ended.blanks hb')
  rw [readItems_lead begins hc, counter]
  simp only [bind, Except.bind, readItems_blanks hb']
  cases readItems k false rest <;> rfl

theorem readItems_separated (h : Separated (fun n => Padded (decimal n)) counters ts)
    (rest : List Char) :
    readItems counters.length first (lead first (ts ++ ']' :: rest)) = .ok (counters, rest) := by
  induction h generalizing first with
  | one ht =>
    rw [List.length_singleton, readItems_step ht (ended_cons (by simp)), readItems,
      skipBlanks_cons rfl]
    rfl
  | @more n counters t ts ht _ ih =>
    rw [List.append_assoc, List.cons_append, List.length_cons,
      readItems_step ht (ended_cons (by simp))]
    change (readItems _ false (lead false _)).map _ = _
    rw [ih]
    rfl

/-- An array gives its counters if there are as many as the visitor takes. -/
theorem readRecord_array (hlen : counters.length = v.size) (h : ArrayText counters text) :
    readRecord v text = v.ofItems counters := by
  obtain ⟨t, ht, hpad⟩ := h
  obtain ⟨b, b', hb, hb', htext⟩ := hpad.exists_blanks
  have ends (r : Except Fault α) : (do let a ← r; readEnd b'; return a) = r := by
    cases r <;> simp [readEnd_blanks hb', bind, Except.bind, pure, Except.pure]
  rw [readRecord, htext, skipBlanks_append hb]
  cases ht with
  | empty hb =>
    rw [List.cons_append, skipBlanks_cons rfl, List.append_assoc]
    simp only [← hlen, readItems_blanks hb]
    rw [List.length_nil, readItems, List.singleton_append, skipBlanks_cons rfl]
    exact ends _
  | @full _ ts h =>
    rw [List.cons_append, skipBlanks_cons rfl, List.append_assoc]
    change (readItems v.size true (lead true _) >>= _) = _
    rw [← hlen, List.singleton_append, readItems_separated h b']
    exact ends _

/-! ### Names -/

theorem readName_string {named : String → Except Fault α} {name : String}
    (h : NameText name text) : readName named text = named name := by
  obtain ⟨raw, spells, hpad⟩ := h
  obtain ⟨b, b', hb, hb', htext⟩ := hpad.exists_blanks
  rw [readName, htext, skipBlanks_append hb, List.cons_append, skipBlanks_cons rfl,
    List.append_assoc, List.singleton_append]
  simp only [spells.read, String.ofList_toList, readEnd_blanks hb', bind, Except.bind]
  cases named name <;> rfl

/-- The format that the program uses is lawful. -/
theorem compact_lawful : compact.Lawful where
  written _ _ := rfl
  object := readRecord_object
  array := readRecord_array
  nameWritten _ _ := rfl
  name := readName_string

end WorkerPool.Json
