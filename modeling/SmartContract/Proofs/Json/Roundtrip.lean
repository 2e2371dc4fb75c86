import SmartContract.Proofs.Json.Layout
import SmartContract.Proofs.Json.Members
import SmartContract.Proofs.Json.Reader.Run

/-!
Reading undoes writing. A value that has no floating-point numbers, whose integers fit 64 bits, whose
members are in order and which is not too deep is read back from its compact form and from its
pretty form.
-/

namespace SmartContract.Json

/-- The value has no floating-point numbers, its integers fit 64 bits, the members of its objects are
in order, and no more than so many arrays and objects lie in each other. -/
inductive Canonical : Nat → Json → Prop where
  | null {depth} : Canonical depth .null
  | bool {depth} (b : Bool) : Canonical depth (.bool b)
  | int {depth} (n : Int) (low : -(Numeral.signedMax + 1 : Int) ≤ n)
      (high : n < Numeral.wordLimit) : Canonical depth (.int n)
  | string {depth} (s : String) : Canonical depth (.string s)
  | array {depth} (items : List Json) (canonical : ∀ v ∈ items, Canonical depth v) :
      Canonical (depth + 1) (.array items)
  | object {depth} (members : List (String × Json)) (ascending : Ascending members)
      (canonical : ∀ m ∈ members, Canonical depth m.2) : Canonical (depth + 1) (.object members)

namespace State

variable {l : Layout} {s : State} {frames : List Frame} {v : Json} {level : Nat}

/-! ### Arrays -/

/-- Behind an item, the further items and the end of the array are read. -/
theorem HasRead.reads?_items {before rest : List Json}
    (h : s.HasRead (.array before :: frames) v)
    (hrest : ∀ w ∈ rest, ∀ before, Starts (.array before :: frames) (l.chars (level + 1) w) w) :
    s.reads? (l.items level rest) =
      some ⟨frames, .done (.array (before.reverse ++ v :: rest))⟩ := by
  induction rest generalizing s v before with
  | nil =>
    obtain ⟨t, hblank, ht⟩ := h.blanks (l.line_blank level)
    have hstep : t.step (octet ']') =
        .ok ⟨frames, .done (.array (before.reverse ++ [v]))⟩ := by
      rw [ht.step _ (.inr (.inr (.inl rfl)))]
      simp [follow, isSpace]
    rw [Layout.items, reads?_append hblank, reads?_cons (by decide) hstep, reads?_nil]
  | cons w rest ih =>
    obtain ⟨hw, hrest⟩ := List.forall_mem_cons.1 hrest
    have hstep : s.step (octet ',') = .ok ⟨.array (v :: before) :: frames, .nextItem⟩ := by
      rw [h.step _ (.inr (.inl rfl))]
      simp [follow, isSpace]
    obtain ⟨t, hread, ht⟩ := (hw (v :: before)).exists_reads? (.inr (.inr rfl))
      (l.line_blank (level + 1))
    rw [Layout.items, reads?_cons (by decide) hstep, reads?_append hread, ih ht hrest,
      List.reverse_cons, List.append_assoc, List.singleton_append]

/-! ### Objects -/

/-- A member is due behind the given members. -/
def IsMemberDue (members : List (String × Json)) (r : Reading) : Prop :=
  r = .firstMember ∧ members = [] ∨ r = .nextMember members

theorem step_blank_of_isMemberDue {members : List (String × Json)} {r : Reading}
    (hr : IsMemberDue members r) (c : Char) (hc : isSpace c = true) :
    (⟨frames, r⟩ : State).step (octet c) = .ok ⟨frames, r⟩ := by
  have hascii : c.toNat < 0x80 := IsDelimiter.toNat_lt (.inl hc)
  rcases hr with ⟨rfl, -⟩ | rfl <;> simp only [step, ofNat_octet hascii, hc, if_true]

/-- Where a member is due, its name is read, and its value as one within the object. -/
theorem Starts.exists_reads?_member {members : List (String × Json)} {r : Reading} {key : String}
    {blanks gap cs : List Char} (h : Starts (.object members key :: frames) cs v)
    (hr : IsMemberDue members r) (hblanks : ∀ c ∈ blanks, isSpace c = true)
    (hgap : ∀ c ∈ gap, isSpace c = true) :
    ∃ t, (⟨frames, r⟩ : State).reads? (blanks ++ stringChars key ++ ':' :: (gap ++ cs)) = some t ∧
      t.HasRead (.object members key :: frames) v := by
  obtain ⟨t, hread, ht⟩ := h.exists_reads? (.inl rfl) hgap
  have hquote : (⟨frames, r⟩ : State).step (octet '"') =
      .ok ⟨frames, .string (.key members) (.plain [])⟩ := by
    rcases hr with ⟨rfl, rfl⟩ | rfl <;> rfl
  have hcolon : (⟨frames, .colon members key⟩ : State).step (octet ':') =
      .ok ⟨.object members key :: frames, .value⟩ := rfl
  refine ⟨t, ?_, ht⟩
  rw [List.append_assoc, reads?_append (reads?_blanks (step_blank_of_isMemberDue hr) hblanks),
    stringChars, List.cons_append, reads?_cons (by decide) hquote, reads?_append (reads?_string key),
    Role.reading, reads?_cons (by decide) hcolon, hread]

/-- Behind a member, the further members and the end of the object are read. -/
theorem HasRead.reads?_members {before rest : List (String × Json)} {key : String}
    (h : s.HasRead (.object before key :: frames) v)
    (hrest : ∀ m ∈ rest, ∀ before key,
      Starts (.object before key :: frames) (l.chars (level + 1) m.2) m.2) :
    s.reads? (l.members level rest) =
      some ⟨frames, .done (.object (rest.foldl (fun sorted m => insertMember m.1 m.2 sorted)
        (insertMember key v before)))⟩ := by
  induction rest generalizing s v before key with
  | nil =>
    obtain ⟨t, hblank, ht⟩ := h.blanks (l.line_blank level)
    have hstep : t.step (octet '\x7d') =
        .ok ⟨frames, .done (.object (insertMember key v before))⟩ := by
      rw [ht.step _ (.inr (.inr (.inr rfl)))]
      simp [follow, isSpace]
    rw [Layout.members, reads?_append hblank, reads?_cons (by decide) hstep, reads?_nil,
      List.foldl_nil]
  | cons m rest ih =>
    obtain ⟨hm, hrest⟩ := List.forall_mem_cons.1 hrest
    have hstep : s.step (octet ',') = .ok ⟨frames, .nextMember (insertMember key v before)⟩ := by
      rw [h.step _ (.inr (.inl rfl))]
      simp [follow, isSpace]
    obtain ⟨t, hread, ht⟩ := (hm (insertMember key v before) m.1).exists_reads?_member (.inr rfl)
      (l.line_blank (level + 1)) l.gap_blank
    rw [Layout.members, reads?_cons (by decide) hstep, reads?_append hread, ih ht hrest,
      List.foldl_cons]

/-! ### Values -/

/-- A value is read from the characters that write it, unless it is too deep. -/
theorem starts_chars (l : Layout) {depth : Nat} (h : Canonical depth v) (level : Nat)
    (frames : List Frame) (hdepth : frames.length + depth < depthLimit) :
    Starts frames (l.chars level v) v := by
  induction h generalizing level frames with
  | null => exact starts_null
  | bool b =>
    cases b with
    | false => exact starts_false
    | true => exact starts_true
  | int n low high => exact starts_int low high
  | string s => exact starts_string s
  | array items _ ih =>
    -- The containers that are open and those still to come are fewer than the limit together.
    have hbegin : begin frames '[' = .ok ⟨.array [] :: frames, .firstItem⟩ := by
      rw [begin.eq_def]
      exact if_pos (by omega)
    cases items with
    | nil =>
      refine ⟨'[', [']'], _, _, rfl, by decide, by decide, by decide, hbegin, ?_, hasRead_done⟩
      rfl
    | cons w rest =>
      -- An item is read alike whatever items stand before it.
      have hstarts : ∀ u ∈ w :: rest, ∀ before,
          Starts (.array before :: frames) (l.chars (level + 1) u) u := fun u hu before =>
        ih u hu (level + 1) (.array before :: frames) (by rw [List.length_cons]; omega)
      obtain ⟨hw, hrest⟩ := List.forall_mem_cons.1 hstarts
      obtain ⟨t, hread, ht⟩ := (hw []).exists_reads? (.inr (.inl rfl)) (l.line_blank (level + 1))
      refine ⟨'[', _, _, _, by rw [Layout.chars], by decide, by decide, by decide, hbegin, ?_,
        hasRead_done⟩
      rw [reads?_append hread, ht.reads?_items hrest]
      rfl
  | object members ascending _ ih =>
    have hbegin : begin frames '\x7b' = .ok ⟨frames, .firstMember⟩ := by
      rw [begin.eq_def]
      exact if_pos (by omega)
    cases members with
    | nil =>
      refine ⟨'\x7b', ['\x7d'], _, _, rfl, by decide, by decide, by decide, hbegin, ?_,
        hasRead_done⟩
      rfl
    | cons m rest =>
      have hstarts : ∀ n ∈ m :: rest, ∀ before key,
          Starts (.object before key :: frames) (l.chars (level + 1) n.2) n.2 :=
        fun n hn before key =>
          ih n hn (level + 1) (.object before key :: frames) (by rw [List.length_cons]; omega)
      obtain ⟨hm, hrest⟩ := List.forall_mem_cons.1 hstarts
      obtain ⟨t, hread, ht⟩ := (hm [] m.1).exists_reads?_member (.inl ⟨rfl, rfl⟩)
        (l.line_blank (level + 1)) l.gap_blank
      refine ⟨'\x7b', _, _, _, by rw [Layout.chars], by decide, by decide, by decide, hbegin, ?_,
        hasRead_done⟩
      rw [reads?_append hread, ht.reads?_members hrest]
      -- The reader puts members in order one by one, and they are in order already.
      exact congrArg (fun u => some (⟨frames, .done u⟩ : State)) (ofMembers_eq_object ascending)

end State

/-! ### Texts -/

/-- A value is read back from its characters in any layout, whatever blanks come behind them. -/
theorem read_chars (l : Layout) {v : Json} {depth : Nat} (h : Canonical depth v)
    (hdepth : depth < depthLimit) {blanks : List Char} (hblanks : ∀ c ∈ blanks, isSpace c = true) :
    read (Text.utf8 (String.ofList (l.chars 0 v ++ blanks))) = .ok v := by
  have hstarts := State.starts_chars l h 0 [] (by simpa using hdepth)
  obtain ⟨s, hread, hs⟩ := hstarts.exists_reads? (.inl rfl) (List.forall_mem_nil _)
  rw [List.nil_append] at hread
  obtain ⟨t, hend, ht⟩ := hs.blanks hblanks
  have hrun : (⟨[], .value⟩ : State).reads? (l.chars 0 v ++ blanks) = some t := by
    rw [State.reads?_append hread, hend]
  rw [State.reads?] at hrun
  rw [read, Text.utf8_ofList, State.run_eq_ok hrun 0]
  simp only [ht.finish rfl]

theorem read_compact {v : Json} {depth : Nat} (h : Canonical depth v) (hdepth : depth < depthLimit) :
    read (Text.utf8 v.compact) = .ok v := by
  have hchars : v.compact = String.ofList (Layout.compact.chars 0 v ++ []) := by
    rw [Layout.chars_compact, List.append_nil, compact]
  rw [hchars]
  exact read_chars _ h hdepth (by simp)

theorem read_pretty {v : Json} {depth : Nat} (h : Canonical depth v) (hdepth : depth < depthLimit) :
    read (Text.utf8 v.pretty) = .ok v := by
  have hchars : v.pretty = String.ofList (Layout.pretty.chars 0 v ++ ['\n']) := by
    rw [Layout.chars_pretty, pretty]
  rw [hchars]
  exact read_chars _ h hdepth (by simp [isSpace])

end SmartContract.Json
