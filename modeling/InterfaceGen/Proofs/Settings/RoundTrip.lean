import InterfaceGen.Proofs.Json.Block

/-! Settings that have been written are read back. What reading a member puts into a draft is the
value that the written settings have under its key; the directories that are not written are those
that are not set, as in the draft from which reading starts. -/

namespace InterfaceGen.Settings

open Json

variable {s p : Settings} {key : Key} {value rest t : Text}

/-- The settings `p` with the value that `s` has under a key. -/
def Key.copy (s p : Settings) : Key → Settings
  | working => { p with working? := s.working? }
  | output => { p with output? := s.output? }
  | banner => { p with banner := s.banner }
  | suffix => { p with suffix? := s.suffix? }
  | extensions => { p with extensions := s.extensions }
  | dates => { p with dates := s.dates }
  | extension => { p with extension := s.extension }

theorem Key.ofText?_text (key : Key) : Key.ofText? key.text = some key := by
  cases key <;> decide

/-- The white space behind a colon is passed over. -/
theorem readValue_space (p : Settings) (key : Key) (t : Text) :
    readValue p key (' ' :: t) = readValue p key t := by
  cases key <;> rfl

/-- The value that is written for a key is read as what the settings have under it. -/
theorem readValue_valueText (h : s.valueText? key = some value) :
    readValue p key (value ++ rest) = .ok (key.copy s p, rest) := by
  cases key with
  | working =>
    obtain ⟨dir, hdir, rfl⟩ := Option.map_eq_some_iff.mp h
    rw [readValue, readString?_quoted, Key.copy, hdir]
    rfl
  | output =>
    obtain ⟨dir, hdir, rfl⟩ := Option.map_eq_some_iff.mp h
    rw [readValue, readString?_quoted, Key.copy, hdir]
    rfl
  | banner =>
    obtain rfl := Option.some.inj h
    rw [readValue, readBool_boolText]
    rfl
  | suffix =>
    obtain rfl := Option.some.inj h
    rw [readValue, Key.copy]
    cases s.suffix? with
    | none => rfl
    | some suffix =>
      rw [Option.map_some, Option.getD_some, readString?_quoted]
      rfl
  | extensions =>
    obtain rfl := Option.some.inj h
    rw [readValue, readStrings_block (by decide)]
    rfl
  | dates =>
    obtain rfl := Option.some.inj h
    rw [readValue, readBool_boolText]
    rfl
  | extension =>
    obtain rfl := Option.some.inj h
    rw [readValue, readString_of_dropSpace dropSpace_quoted_append]
    rfl

/-- What reading the member of a key makes of a draft. -/
def Draft.take (s : Settings) (p : Draft) (key : Key) : Draft :=
  ⟨key.copy s p.settings, key :: p.seen⟩

theorem readMember_member {p : Draft} (h : s.valueText? key = some value) (hseen : key ∉ p.seen) :
    readMember p (key.text.flatMap escape ++ quote :: ": ".toList ++ value ++ rest) =
      .ok (p.take s key, rest) := by
  have hcolon : ∀ t : Text, expectColon (": ".toList ++ t) = .ok (' ' :: t) := fun t => rfl
  have hvalue : readValue p.settings key (' ' :: (value ++ rest)) =
      .ok (key.copy s p.settings, rest) := by
    rw [readValue_space, readValue_valueText h]
  rw [List.append_assoc, List.append_assoc, List.cons_append, readMember, unquote_flatMap_escape]
  simp only [bind, Except.bind, Key.ofText?_text, if_neg hseen, hcolon, hvalue]
  rfl

/-- The keys that are written. -/
def written (s : Settings) : List Key := Key.all.filter fun key => (s.valueText? key).isSome

/-- The member that is written for a key. -/
def memberText (s : Settings) (key : Key) : Text := member key.text ((s.valueText? key).getD [])

theorem toText_eq_block (s : Settings) :
    s.toText = block '\x7b' '\x7d' [] (s.written.map s.memberText) := by
  have hmap : ∀ keys : List Key,
      keys.filterMap (fun key => (s.valueText? key).map (member key.text)) =
        (keys.filter fun key => (s.valueText? key).isSome).map s.memberText := by
    intro keys
    induction keys with
    | nil => rfl
    | cons key keys ih => cases h : s.valueText? key <;> simp [h, ih, memberText]
  rw [toText, hmap, written]

theorem banner_mem_written (s : Settings) : Key.banner ∈ s.written :=
  List.mem_filter.mpr ⟨by decide, rfl⟩

theorem nodup_written (s : Settings) : s.written.Nodup :=
  List.Nodup.filter _ (by decide)

theorem isSome_of_mem_written (h : key ∈ s.written) : (s.valueText? key).isSome = true :=
  (List.mem_filter.mp h).2

/-- Taking over the keys that are written is enough: the others are as in the default settings. -/
theorem foldl_take_written (s : Settings) : (s.written.foldl (Draft.take s) {}).settings = s := by
  obtain ⟨working?, output?, banner, suffix?, extensions, dates, extension⟩ := s
  cases working? <;> cases output? <;> rfl

theorem memberText_append (key : Key) (rest : Text) : s.memberText key ++ rest =
    quote :: (key.text.flatMap escape ++ quote :: ": ".toList ++ (s.valueText? key).getD [] ++
      rest) := by
  simp [memberText, member, quoted]

/-- A written member is taken over, and what stands behind it decides how to go on. -/
theorem readMembers_succ {fuel : Nat} {p : Draft} (h : dropSpace t = s.memberText key ++ rest)
    (hwritten : (s.valueText? key).isSome = true) (hseen : key ∉ p.seen) :
    readMembers (fuel + 1) p t =
      match dropSpace rest with
      | [] => .error .unfinished
      | c :: t =>
        if c = ',' then readMembers fuel (p.take s key) t
        else if c = '\x7d' then .ok ((p.take s key).settings, t)
        else .error .malformed := by
  obtain ⟨value, hvalue⟩ := Option.isSome_iff_exists.mp hwritten
  rw [memberText_append, hvalue, Option.getD_some] at h
  rw [readMembers, h]
  simp only [bind, Except.bind, readMember_member hvalue hseen]
  rfl

theorem head?_memberText (key : Key) : (s.memberText key).head? = some quote := rfl

/-- Written members that start with that of `key` are taken over, each once, up to the closing
bracket. -/
theorem readMembers_behind {fuel : Nat} {p : Draft} {keys : List Key}
    (hfuel : keys.length < fuel) (hnodup : (key :: keys).Nodup)
    (hwritten : ∀ k ∈ key :: keys, (s.valueText? k).isSome = true)
    (hseen : ∀ k ∈ key :: keys, k ∉ p.seen)
    (h : dropSpace t = s.memberText key ++ (behind '\x7d' [] (keys.map s.memberText) ++ rest)) :
    readMembers fuel p t = .ok (((key :: keys).foldl (Draft.take s) p).settings, rest) := by
  induction keys generalizing key fuel p t with
  | nil =>
    obtain ⟨fuel, rfl⟩ := Nat.exists_eq_add_one_of_ne_zero (Nat.ne_zero_of_lt hfuel)
    rw [readMembers_succ h (hwritten key List.mem_cons_self) (hseen key List.mem_cons_self),
      List.map_nil, dropSpace_behind_nil (by simp), dropSpace_cons rfl]
    rfl
  | cons next keys ih =>
    obtain ⟨fuel, rfl⟩ := Nat.exists_eq_add_one_of_ne_zero (Nat.ne_zero_of_lt hfuel)
    obtain ⟨hkey, hnodup⟩ := List.nodup_cons.mp hnodup
    have hfresh : ∀ k ∈ next :: keys, k ∉ (p.take s key).seen := by
      intro k hk hmem
      rcases List.mem_cons.mp hmem with rfl | hmem
      · exact hkey hk
      · exact hseen k (List.mem_cons_of_mem key hk) hmem
    have hrest := ih (Nat.lt_of_succ_lt_succ hfuel) hnodup
      (fun k hk => hwritten k (List.mem_cons_of_mem key hk)) hfresh
      (dropSpace_item (List.forall_mem_nil _) (head?_memberText next) _ rest)
    rw [readMembers_succ h (hwritten key List.mem_cons_self) (hseen key List.mem_cons_self),
      List.map_cons, behind, List.cons_append, dropSpace_cons rfl]
    exact hrest

theorem readObject_of_dropSpace (h : dropSpace t = quote :: rest) :
    readObject t = readMembers t.length {} (quote :: rest) := by
  rw [readObject, h]
  exact if_neg (by decide)

/-- The object that is written is read to its end, whatever stands behind it. -/
theorem readObject_block (s : Settings) (rest : Text) : ∃ t,
    s.toText = '\x7b' :: t ∧ readObject (t ++ rest) = .ok (s, rest) := by
  obtain ⟨key, keys, hkeys⟩ := List.exists_cons_of_ne_nil
    (List.ne_nil_of_mem s.banner_mem_written)
  have hdrop := dropSpace_item (List.forall_mem_nil _) (s.head?_memberText key)
    (behind '\x7d' [] (keys.map s.memberText)) rest
  refine ⟨_, by rw [toText_eq_block, hkeys, List.map_cons, block_cons], ?_⟩
  set t := '\n' :: ([] ++ "  ".toList ++ s.memberText key ++
    behind '\x7d' [] (keys.map s.memberText))
  have hfuel : keys.length < (t ++ rest).length := by
    have hlength := length_lt_behind '\x7d' [] (keys.map s.memberText)
    rw [List.length_map] at hlength
    simp only [t, List.length_append, List.length_cons]
    omega
  have hself : dropSpace (s.memberText key ++ (behind '\x7d' [] (keys.map s.memberText) ++ rest)) =
      s.memberText key ++ (behind '\x7d' [] (keys.map s.memberText) ++ rest) := by
    rw [memberText_append, dropSpace_cons rfl]
  have hread := readMembers_behind (p := {}) hfuel (hkeys ▸ s.nodup_written)
    (fun k hk => isSome_of_mem_written (hkeys ▸ hk)) nofun hself
  rw [← hkeys, foldl_take_written] at hread
  rw [← hread, memberText_append]
  exact readObject_of_dropSpace (hdrop.trans (s.memberText_append key _))

/-- Settings that have been written are read back as they are, whichever directories are set, with
or without a suffix, and whatever characters stand in their texts. -/
theorem ofText_toText (s : Settings) : ofText s.toText = .ok s := by
  obtain ⟨t, htext, hread⟩ := s.readObject_block []
  rw [List.append_nil] at hread
  rw [ofText, htext, dropSpace_cons rfl]
  change (readObject t >>= _) = _
  rw [hread]
  rfl

/-- A suffix that is not set is written as `null`, a directory that is not set is left out. -/
example :
    let s : Settings :=
      { output? := some "a\x22b".toList, suffix? := none, extensions := ["cs".toList] }
    s.toText = ['\n'].intercalate ["\x7b".toList,
      "  \x22convertDirectory\x22: \x22a\x5c\x22b\x22,".toList,
      "  \x22autoGeneratedTag\x22: true,".toList,
      "  \x22nameSuffix\x22: null,".toList,
      "  \x22extensions\x22: [".toList,
      "    \x22cs\x22".toList,
      "  ],".toList,
      "  \x22mapDateTime\x22: true,".toList,
      "  \x22outputExtension\x22: \x22ts\x22".toList,
      "\x7d".toList] := by
  decide +kernel

end InterfaceGen.Settings
