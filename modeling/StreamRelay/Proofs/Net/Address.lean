import StreamRelay.Proofs.Text.Numerals

/-!
# Addresses are read as they are written

Every socket address is what its text says, whichever form the text has: octets, eight groups,
groups with the longest run of zeros left out, or octets behind the prefix of a mapped address, with
a scope or without. Groups are read up to a place where no further one can begin.
-/

namespace StreamRelay
open Text (Stops)

abbrev StopsDecimal : List Char → Prop := Stops fun c => (Text.decimalDigit? c).isSome

abbrev StopsHex : List Char → Prop := Stops fun c => (Text.hexDigit? c).isSome

abbrev StopsDot : List Char → Prop := Stops (· = '.')

variable {s rest : List Char}

theorem StopsHex.decimal (h : StopsHex s) : StopsDecimal s := by
  intro c hc
  have hhex : (Text.hexDigit? c).isSome = false := h c hc
  by_cases hdigit : '0' ≤ c ∧ c ≤ '9'
  · rw [Text.hexDigit?, if_pos hdigit] at hhex
    contradiction
  · have hnone : Text.decimalDigit? c = none := if_neg hdigit
    simp [hnone]

@[simp] theorem take?_cons_self (c : Char) (s : List Char) : take? c (c :: s) = some s := if_pos rfl

theorem take?_of_stops {c : Char} (h : Stops (· = c) s) : take? c s = none := by
  cases s with
  | nil => rfl
  | cons d s =>
    have hne : d ≠ c := by simpa using h
    exact if_neg hne

namespace Ipv4

theorem readOctet_toDigits (o : UInt8) (hrest : StopsDecimal rest) :
    readOctet (Nat.toDigits 10 o.toNat ++ rest) = some (o, rest) := by
  have hlt : o.toNat < 256 := o.toNat_lt
  have hpos : 0 < (Nat.toDigits 10 o.toNat).length := Nat.length_toDigits_pos
  have hlength : (Nat.toDigits 10 o.toNat).length ≤ 3 := by
    rw [Nat.length_toDigits_le_iff (by decide) (by decide)]
    omega
  have hzero : (Nat.toDigits 10 o.toNat).head? = some '0' →
      (Nat.toDigits 10 o.toNat).length = 1 := by
    intro h
    rw [Text.reads_decimal.eq_zero_of_head? h]
    rfl
  unfold readOctet
  rw [Text.reads_decimal.digitRun_toDigits _ hrest]
  dsimp only
  rw [if_neg, UInt8.ofNat_toNat]
  rintro (h | h | ⟨h, hne⟩ | h)
  · omega
  · omega
  · exact hne (hzero h)
  · omega

theorem readOctet_eq_some {o : UInt8} (h : readOctet s = some (o, rest)) :
    rest = s.dropWhile fun c => (Text.decimalDigit? c).isSome := by
  unfold readOctet digitRun at h
  dsimp only at h
  split at h
  · contradiction
  · cases h
    rfl

/-- A dot must stand behind the first octet. -/
theorem read_eq_none (h : StopsDot (s.dropWhile fun c => (Text.decimalDigit? c).isSome)) :
    read s = none := by
  unfold read
  cases ho : readOctet s with
  | none => rfl
  | some p =>
    obtain ⟨o, rest⟩ := p
    rw [← readOctet_eq_some ho] at h
    simp [take?_of_stops h]

theorem read_of_stops (hdigit : StopsDecimal s) (hdot : StopsDot s) : read s = none := by
  apply read_eq_none
  rwa [hdigit.dropWhile_eq]

/-- The octets of an address, with dots between them. -/
theorem text_of (a b c d : UInt8) :
    (of a b c d).text = Nat.toDigits 10 a.toNat ++ '.' :: (Nat.toDigits 10 b.toNat ++
      '.' :: (Nat.toDigits 10 c.toNat ++ '.' :: Nat.toDigits 10 d.toNat)) := by
  simp [text, of, List.intercalate]

theorem eq_of (ip : Ipv4) : ∃ a b c d, ip = of a b c d := by
  obtain ⟨octets, h⟩ := ip
  match octets, h with
  | [a, b, c, d], _ => exact ⟨a, b, c, d, rfl⟩

theorem read_text (ip : Ipv4) (hrest : StopsDecimal rest) :
    read (ip.text ++ rest) = some (ip, rest) := by
  obtain ⟨a, b, c, d, rfl⟩ := ip.eq_of
  have hdot : ∀ s, StopsDecimal ('.' :: s) := fun s => Stops.cons_iff.mpr rfl
  simp only [text_of, List.append_assoc, List.cons_append]
  unfold read
  simp [readOctet_toDigits _ (hdot _), readOctet_toDigits d hrest]

end Ipv4

namespace Ipv6

/-- What stands here cannot go on with a group. -/
structure Closes (rest : List Char) : Prop where
  hex : StopsHex rest
  dot : StopsDot rest
  none : ∀ limit first, readGroups limit first rest = ([], false, rest)

theorem readGroup_hexNumeral (g : UInt16) (hrest : StopsHex rest) :
    readGroup (Text.hexNumeral g.toNat ++ rest) = some (g, rest) := by
  have hlt : g.toNat < 65536 := g.toNat_lt
  have hpos : 0 < (Nat.toDigits 16 g.toNat).length := Nat.length_toDigits_pos
  have hlength : (Nat.toDigits 16 g.toNat).length ≤ 4 := by
    rw [Nat.length_toDigits_le_iff (by decide) (by decide)]
    omega
  unfold readGroup Text.hexNumeral
  rw [Text.reads_hexadecimal.digitRun_toDigits _ hrest]
  dsimp only
  rw [if_neg (by omega), UInt16.ofNat_toNat]

theorem readGroup_of_stops (h : StopsHex s) : readGroup s = none := by
  unfold readGroup digitRun
  simp [h.takeWhile_eq]

/-- The digits of a group are not taken for an octet, as no dot stands behind them. -/
theorem read4_hexNumeral (n : Nat) (hhex : StopsHex rest) (hdot : StopsDot rest) :
    Ipv4.read (Text.hexNumeral n ++ rest) = none := by
  apply Ipv4.read_eq_none
  rw [List.dropWhile_append]
  split
  · rwa [hhex.decimal.dropWhile_eq]
  · rename_i hne
    intro c hc
    rw [List.head?_append, Option.or_of_isSome (by simpa using hne)] at hc
    have hmem : c ∈ Nat.toDigits 16 n :=
      (List.dropWhile_sublist _).subset (List.mem_of_mem_head? hc)
    have hdigit := Text.reads_hexadecimal.isSome_of_mem hmem
    apply decide_eq_false
    rintro rfl
    contradiction

/-- A group in front, or behind a colon, is read before the others. -/
theorem readGroups_group (limit : Nat) (first : Bool) (g : UInt16) (hhex : StopsHex rest)
    (hdot : StopsDot rest) :
    readGroups (limit + 1) first
        ((if first then [] else [':']) ++ (Text.hexNumeral g.toNat ++ rest)) =
      let behind := readGroups limit false rest
      (g :: behind.1, behind.2.1, behind.2.2) := by
  have hnone : (if limit = 0 then none else Ipv4.read (Text.hexNumeral g.toNat ++ rest)) =
      none := by
    rw [read4_hexNumeral _ hhex hdot, ite_self]
  cases first <;> simp [readGroups, hnone, readGroup_hexNumeral g hhex]

/-- What ends groups is no colon with a group behind it. -/
theorem Closes.of_ne {c : Char} (hhex : StopsHex (c :: rest)) (hdot : c ≠ '.') (hcolon : c ≠ ':') :
    Closes (c :: rest) where
  hex := hhex
  dot := by simpa using hdot
  none limit first := by
    have hread : Ipv4.read (c :: rest) = Option.none :=
      Ipv4.read_of_stops hhex.decimal (by simpa using hdot)
    have htake : take? ':' (c :: rest) = Option.none := if_neg hcolon
    cases limit with
    | zero => rfl
    | succ limit =>
      cases first <;> simp [readGroups, htake, hread, readGroup_of_stops hhex]

theorem Closes.colons (s : List Char) : Closes (':' :: ':' :: s) where
  hex := Stops.cons_iff.mpr rfl
  dot := Stops.cons_iff.mpr rfl
  none limit first := by
    have hhex : ∀ s, StopsHex (':' :: s) := fun s => Stops.cons_iff.mpr rfl
    have hread : ∀ s, Ipv4.read (':' :: s) = Option.none :=
      fun s => Ipv4.read_of_stops (hhex s).decimal (Stops.cons_iff.mpr rfl)
    cases limit with
    | zero => rfl
    | succ limit =>
      cases first <;> simp [readGroups, hread, readGroup_of_stops (hhex _)]

def tailText (gs : List UInt16) : List Char := gs.flatMap fun g => ':' :: Text.hexNumeral g.toNat

theorem groupText_cons (g : UInt16) (gs : List UInt16) :
    groupText (g :: gs) = Text.hexNumeral g.toNat ++ tailText gs := by
  induction gs generalizing g with
  | nil => simp [groupText, tailText, List.intercalate]
  | cons h gs ih =>
    have hmore : groupText (g :: h :: gs) =
        Text.hexNumeral g.toNat ++ ':' :: groupText (h :: gs) := by
      simp [groupText, List.intercalate]
    rw [hmore, ih]
    simp [tailText]

/-- Behind a group there is a colon, or what comes after all of them. -/
theorem stops_tailText {p : Char → Bool} (hp : p ':' = false) (hrest : Stops p rest)
    (gs : List UInt16) : Stops p (tailText gs ++ rest) := by
  cases gs with
  | nil => exact hrest
  | cons g gs => exact Stops.cons_iff.mpr hp

theorem readGroups_tailText {limit : Nat} {gs : List UInt16} (hlimit : gs.length ≤ limit)
    (hrest : Closes rest) : readGroups limit false (tailText gs ++ rest) = (gs, false, rest) := by
  induction gs generalizing limit with
  | nil => exact hrest.none limit false
  | cons g gs ih =>
    have hhex := stops_tailText rfl hrest.hex gs
    have hdot := stops_tailText rfl hrest.dot gs
    cases limit with
    | zero => contradiction
    | succ limit =>
      have hread := readGroups_group limit false g hhex hdot
      rw [ih (Nat.le_of_succ_le_succ hlimit)] at hread
      simpa [tailText] using hread

theorem readGroups_groupText {limit : Nat} {gs : List UInt16} (hlimit : gs.length ≤ limit)
    (hrest : Closes rest) : readGroups limit true (groupText gs ++ rest) = (gs, false, rest) := by
  cases gs with
  | nil => exact hrest.none limit true
  | cons g gs =>
    have hhex := stops_tailText rfl hrest.hex gs
    have hdot := stops_tailText rfl hrest.dot gs
    cases limit with
    | zero => contradiction
    | succ limit =>
      have hread := readGroups_group limit true g hhex hdot
      rw [readGroups_tailText (Nat.le_of_succ_le_succ hlimit) hrest] at hread
      rw [groupText_cons, List.append_assoc]
      exact hread

def IsRun (gs : List UInt16) (run : Nat × Nat) : Prop :=
  gs = gs.take run.1 ++ List.replicate run.2 0 ++ gs.drop (run.1 + run.2)

theorem isRun_takeWhile (gs : List UInt16) (start : Nat) :
    IsRun gs (start, ((gs.drop start).takeWhile (· = 0)).length) := by
  generalize hback : gs.drop start = back
  have hzeros : back.takeWhile (· = 0) = List.replicate (back.takeWhile (· = 0)).length 0 := by
    rw [List.eq_replicate_iff]
    refine ⟨rfl, ?_⟩
    intro g hg
    simpa using List.all_eq_true.mp List.all_takeWhile g hg
  have hbehind : gs.drop (start + (back.takeWhile (· = 0)).length) = back.dropWhile (· = 0) := by
    calc gs.drop (start + (back.takeWhile (· = 0)).length)
        = back.drop (back.takeWhile (· = 0)).length := by rw [← List.drop_drop, hback]
      _ = (back.takeWhile (· = 0) ++ back.dropWhile (· = 0)).drop
            (back.takeWhile (· = 0)).length := by rw [List.takeWhile_append_dropWhile]
      _ = back.dropWhile (· = 0) := List.drop_left
  unfold IsRun
  rw [hbehind, ← hzeros, List.append_assoc, List.takeWhile_append_dropWhile, ← hback,
    List.take_append_drop]

theorem isRun_zeroRun (gs : List UInt16) : IsRun gs (zeroRun gs) := by
  unfold zeroRun
  generalize List.range gs.length = starts
  have hnone : IsRun gs (0, 0) := by simp [IsRun]
  revert hnone
  generalize ((0, 0) : Nat × Nat) = best
  intro hbest
  induction starts generalizing best with
  | nil => exact hbest
  | cons start starts ih =>
    rw [List.foldl_cons]
    apply ih
    dsimp only
    split
    · exact isRun_takeWhile gs start
    · exact hbest

/-- The groups in front of the zeros that are left out, the zeros, and the groups behind them. -/
theorem IsRun.zeros {ip : Ipv6} {run : Nat × Nat} (h : IsRun ip.groups run) (hrun : 1 < run.2) :
    (ip.groups.take run.1).length < 8 ∧
    (ip.groups.drop (run.1 + run.2)).length ≤ 7 - (ip.groups.take run.1).length ∧
    ofGroups? (ip.groups.take run.1 ++ List.replicate
      (8 - (ip.groups.take run.1).length - (ip.groups.drop (run.1 + run.2)).length) 0 ++
      ip.groups.drop (run.1 + run.2)) = some ip := by
  have hlength := congrArg List.length h
  rw [ip.length_eq, List.length_append, List.length_append, List.length_replicate] at hlength
  refine ⟨by omega, by omega, ?_⟩
  have hzeros : 8 - (ip.groups.take run.1).length - (ip.groups.drop (run.1 + run.2)).length =
      run.2 := by omega
  rw [hzeros, ← h]
  exact dif_pos ip.length_eq

theorem ofGroups?_groups (ip : Ipv6) : ofGroups? ip.groups = some ip := dif_pos ip.length_eq

theorem eq_of_mapped? {ip : Ipv6} {v4 : Ipv4} (h : ip.mapped? = some v4) :
    ip.groups = List.replicate 5 0 ++ 0xffff :: v4.groups := by
  have hparts : ∀ g : UInt16, (g / 256).toUInt8.toUInt16 * 256 + g.toUInt8.toUInt16 = g := by
    intro g
    have hlt : g.toNat < 65536 := g.toNat_lt
    apply UInt16.toNat.inj
    simp only [UInt16.toNat_add, UInt16.toNat_mul, UInt8.toNat_toUInt16, UInt16.toNat_toUInt8,
      UInt16.toNat_div]
    change (g.toNat / 256 % 256 * 256 % 65536 + g.toNat % 256) % 65536 = g.toNat
    omega
  unfold mapped? at h
  split at h
  · rename_i ab cd hgroups
    cases h
    rw [hgroups, Ipv4.groups, Ipv4.of]
    dsimp only
    rw [hparts, hparts]
    rfl
  · cases h

/-- With two groups to go, octets may end them. -/
theorem readGroups_octets (limit : Nat) (v4 : Ipv4) (hrest : StopsDecimal rest) :
    readGroups (limit + 2) false (':' :: (v4.text ++ rest)) = (v4.groups, true, rest) := by
  simp [readGroups, v4.read_text hrest]

theorem read_mapped {ip : Ipv6} {v4 : Ipv4} (h : ip.mapped? = some v4) (hrest : StopsDecimal rest) :
    read ("::ffff:".toList ++ v4.text ++ rest) = some (ip, rest) := by
  have hcolon : ∀ s, StopsHex (':' :: s) ∧ StopsDot (':' :: s) :=
    fun s => ⟨Stops.cons_iff.mpr rfl, Stops.cons_iff.mpr rfl⟩
  have hnumeral : Text.hexNumeral (0xffff : UInt16).toNat = ['f', 'f', 'f', 'f'] := by decide
  have hmapped : "::ffff:".toList = [':', ':', 'f', 'f', 'f', 'f', ':'] := by decide
  have hfront := (Closes.colons ('f' :: 'f' :: 'f' :: 'f' :: ':' :: (v4.text ++ rest))).none 8 true
  have hback := readGroups_group 6 true 0xffff (hcolon (v4.text ++ rest)).1 (hcolon _).2
  rw [readGroups_octets 4 v4 hrest, hnumeral] at hback
  simp only [if_true, List.nil_append, List.cons_append] at hback
  have hsize : v4.groups.length = 2 := by
    obtain ⟨a, b, c, d, rfl⟩ := v4.eq_of
    rfl
  have hgroups : ofGroups? (0 :: 0 :: 0 :: 0 :: 0 :: 0xffff :: v4.groups) = some ip := by
    have hsame := ofGroups?_groups ip
    rwa [eq_of_mapped? h] at hsame
  unfold read
  simp only [hmapped, List.cons_append, List.nil_append, hfront]
  simp [hback, hsize, hgroups]

theorem read_text (ip : Ipv6) (hrest : Closes rest) : read (ip.text ++ rest) = some (ip, rest) := by
  unfold text
  cases hmapped : ip.mapped? with
  | some v4 => exact read_mapped hmapped hrest.hex.decimal
  | none =>
    dsimp only
    split
    · rename_i hrun
      obtain ⟨hhead, htail, hgroups⟩ := (isRun_zeroRun ip.groups).zeros hrun
      generalize ip.groups.take _ = head at hhead htail hgroups ⊢
      generalize ip.groups.drop _ = tail at htail hgroups ⊢
      have hfront := readGroups_groupText hhead.le (Closes.colons (groupText tail ++ rest))
      have hback := readGroups_groupText htail hrest
      simp only [List.append_assoc, List.cons_append, List.nil_append]
      rw [List.append_assoc] at hgroups
      unfold read
      rw [hfront]
      simp [hhead.ne, hback, hgroups]
    · have hread := readGroups_groupText ip.length_eq.le hrest
      unfold read
      rw [hread]
      simp [ip.length_eq, ofGroups?_groups]

end Ipv6

namespace SocketAddress

theorem readNumber_toDigits {bound n : Nat} (hn : n < bound) (hrest : StopsDecimal rest) :
    readNumber bound (Nat.toDigits 10 n ++ rest) = some (n, rest) := by
  have hpos : 0 < (Nat.toDigits 10 n).length := Nat.length_toDigits_pos
  unfold readNumber
  rw [Text.reads_decimal.digitRun_toDigits n hrest]
  dsimp only
  rw [if_neg (by omega)]

theorem readPort_toDigits (port : UInt16) :
    readPort (':' :: Nat.toDigits 10 port.toNat) = some port := by
  have hread := readNumber_toDigits port.toNat_lt (Stops.nil : StopsDecimal [])
  rw [List.append_nil] at hread
  unfold readPort
  simp [hread]

/-- Every address is what its text says. -/
theorem ofText?_text (a : SocketAddress) : ofText? a.text = some a := by
  cases a with
  | v4 ip port =>
    have hcolon : StopsDecimal (':' :: Nat.toDigits 10 port.toNat) := Stops.cons_iff.mpr rfl
    simp only [text, ofText?, ip.read_text hcolon, readPort_toDigits, Option.map_some]
  | v6 ip scope port =>
    have hnone : ∀ s, Ipv4.read ('[' :: s) = none :=
      fun s => Ipv4.read_of_stops (Stops.cons_iff.mpr rfl) (Stops.cons_iff.mpr rfl)
    have hbracket : Ipv6.Closes (']' :: ':' :: Nat.toDigits 10 port.toNat) :=
      .of_ne (Stops.cons_iff.mpr rfl) (by decide) (by decide)
    unfold text ofText?
    by_cases hscope : scope = 0
    · simp [hscope, hnone, ip.read_text hbracket, readPort_toDigits]
    · have hpercent : ∀ s, Ipv6.Closes ('%' :: s) :=
        fun s => .of_ne (Stops.cons_iff.mpr rfl) (by decide) (by decide)
      have hnumber := readNumber_toDigits scope.toNat_lt hbracket.hex.decimal
      simp [hscope, hnone, ip.read_text (hpercent _), hnumber, readPort_toDigits]

end SocketAddress

end StreamRelay
