import SmartContract.Json.Reader
import SmartContract.Proofs.Json.Members
import SmartContract.Proofs.Json.Reader.Number

/-!
What holds of every value that is read. A property that passes from the parts of a value to the value
holds of all values that the machine builds, and so of the one that it ends with. It may depend on how
many more arrays and objects can lie in each other where the value stands.
-/

namespace SmartContract.Json

/-- The property holds of values without parts that can be read, and passes from the items of an array
and from members in their order to the whole, which lies one level farther out. -/
structure Built (p : Nat → Json → Prop) : Prop where
  null (depth : Nat) : p depth .null
  bool (depth : Nat) (b : Bool) : p depth (.bool b)
  int (depth : Nat) (n : Int) (low : -(Numeral.signedMax + 1 : Int) ≤ n)
    (high : n < Numeral.wordLimit) : p depth (.int n)
  float (depth : Nat) (x : Double) : p depth (.float x)
  string (depth : Nat) (s : String) : p depth (.string s)
  array (depth : Nat) (items : List Json) (held : ∀ v ∈ items, p depth v) :
    p (depth + 1) (.array items)
  object (depth : Nat) (members : List (String × Json)) (ascending : Ascending members)
    (held : ∀ m ∈ members, p depth m.2) : p (depth + 1) (.object members)

variable {p : Nat → Json → Prop} {v : Json} {depth : Nat}

/-! ### Numbers -/

namespace Numbering

/-- The whole digits fit 64 bits as long as none is dropped. -/
def Fits : Numbering → Prop
  | .whole _ significand => significand < Numeral.wordLimit
  | _ => True

variable {n m : Numbering} {c : Char}

theorem fits_whole_of_digit? {negative : Bool} {d : Nat} (h : digit? c = some d) :
    (whole negative d).Fits := by
  rw [digit?] at h
  split_ifs at h with hdigit
  obtain ⟨hlow, hhigh⟩ := Char.isDigit_iff_toNat.1 hdigit
  have hten : '9'.toNat = '0'.toNat + 9 := rfl
  have hd : c.toNat - '0'.toNat = d := Option.some.inj h
  have hlt : d < 10 := by omega
  exact Nat.lt_trans hlt (by decide)

theorem fits_start (h : start? c = some n) : n.Fits := by
  rw [start?] at h
  split_ifs at h
  · exact Option.some.inj h ▸ trivial
  · exact Option.some.inj h ▸ trivial
  · obtain ⟨d, hd, rfl⟩ := Option.map_eq_some_iff.1 h
    exact fits_whole_of_digit? hd

theorem fits_behindWhole {negative : Bool} {significand : Nat} {scale : Int}
    (h : behindWhole negative significand scale c = some m) : m.Fits := by
  rw [behindWhole] at h
  split_ifs at h <;> exact Option.some.inj h ▸ trivial

theorem fits_behindPoint (negative : Bool) (significand : Nat) (scale : Int) (d : Nat) :
    (behindPoint negative significand scale d).Fits := by
  rw [behindPoint]
  split <;> trivial

theorem fits_step (h : n.step c = .ok (some m)) : m.Fits := by
  cases n with
  | sign =>
    simp only [step] at h
    split at h
    · cases h
      trivial
    · rename_i d hd
      cases h
      exact fits_whole_of_digit? hd
    · cases h
  | zero negative =>
    simp only [step] at h
    split_ifs at h
    exact fits_behindWhole (Except.ok.inj h)
  | whole negative significand =>
    simp only [step] at h
    split at h
    · split at h
      · rename_i happend
        cases h
        rw [append?] at happend
        split_ifs at happend with hlt
        exact Option.some.inj happend ▸ hlt
      · cases h
        trivial
    · exact fits_behindWhole (Except.ok.inj h)
  | long negative significand scale =>
    simp only [step] at h
    split_ifs at h
    · cases h
      trivial
    · exact fits_behindWhole (Except.ok.inj h)
  | point negative significand scale =>
    simp only [step] at h
    split at h <;> cases h
    exact fits_behindPoint _ _ _ _
  | fraction negative significand scale =>
    simp only [step] at h
    split at h
    · cases h
      exact fits_behindPoint _ _ _ _
    · split_ifs at h <;> cases h
      trivial
  | longFraction negative significand scale | vanished negative =>
    simp only [step] at h
    split_ifs at h <;> cases h <;> trivial
  | mark negative significand scale =>
    simp only [step] at h
    split_ifs at h
    · cases h
      trivial
    · cases h
      trivial
    · split at h <;> cases h
      trivial
  | markSign negative significand scale down =>
    simp only [step] at h
    split at h <;> cases h
    trivial
  | power negative significand scale down exponent =>
    simp only [step] at h
    split at h
    · split_ifs at h <;> cases h <;> trivial
    · cases h

theorem holds_of_integer (hp : Built p) {negative : Bool} {magnitude : Nat}
    (hfits : magnitude < Numeral.wordLimit) (h : integer negative magnitude = some v) :
    p depth v := by
  unfold integer at h
  split_ifs at h
  · obtain ⟨x, -, rfl⟩ := Option.map_eq_some_iff.1 h
    exact hp.float depth x
  · obtain rfl := Option.some.inj h
    have hlimit : (0 : Int) < Numeral.wordLimit := by decide
    exact hp.int depth _ (by omega) (by omega)
  · obtain rfl := Option.some.inj h
    exact hp.int depth _ (by omega) (by omega)

/-- The property holds of numbers that have been read. -/
theorem Fits.holds_of_finish (hn : n.Fits) (hp : Built p) (h : n.finish = .ok v) : p depth v := by
  have hinteger : ∀ (negative : Bool) (magnitude : Nat), magnitude < Numeral.wordLimit →
      (integer negative magnitude).elim (.error Defect.numberOutOfRange) Except.ok =
        Except.ok v → p depth v := by
    intro negative magnitude hfits hv
    cases hnumber : integer negative magnitude with
    | none => simp [hnumber] at hv
    | some w =>
      rw [hnumber] at hv
      exact Except.ok.inj hv ▸ holds_of_integer hp hfits hnumber
  unfold finish at h
  cases n with
  | zero negative => exact hinteger _ _ (by decide) h
  | whole negative significand => exact hinteger _ _ hn h
  | vanished negative => exact Except.ok.inj h ▸ hp.float depth _
  | sign | point | mark | markSign => cases h
  | long | fraction | longFraction | power =>
    simp only at h
    split at h
    · exact Except.ok.inj h ▸ hp.float depth _
    · cases h

end Numbering

/-! ### What the machine holds -/

/-- The members are in order, and their values have the property. -/
def AreHeld (p : Nat → Json → Prop) (depth : Nat) (ms : List (String × Json)) : Prop :=
  Ascending ms ∧ ∀ m ∈ ms, p depth m.2

theorem AreHeld.insertMember {ms : List (String × Json)} {key : String} (h : AreHeld p depth ms)
    (hv : p depth v) : AreHeld p depth (insertMember key v ms) := by
  refine ⟨ascending_insertMember h.1, fun m hm => ?_⟩
  rcases mem_insertMember hm with rfl | hm
  · exact hv
  · exact h.2 m hm

/-- What has been read of the open arrays and objects has the property. So many more of them can be
opened within the frames. -/
inductive Frame.AreHeld (p : Nat → Json → Prop) : Nat → List Frame → Prop where
  | nil : AreHeld p (depthLimit - 1) []
  | array {depth : Nat} {items : List Json} {outer : List Frame} (held : ∀ v ∈ items, p depth v)
      (outside : AreHeld p (depth + 1) outer) : AreHeld p depth (.array items :: outer)
  | object {depth : Nat} {members : List (String × Json)} {key : String} {outer : List Frame}
      (held : Json.AreHeld p depth members) (outside : AreHeld p (depth + 1) outer) :
      AreHeld p depth (.object members key :: outer)

theorem Frame.AreHeld.depth_add_length {frames : List Frame} (h : Frame.AreHeld p depth frames) :
    depth + frames.length = depthLimit - 1 := by
  induction h with
  | nil => rfl
  | array _ _ ih | object _ _ ih =>
    rw [List.length_cons]
    omega

/-- What has been read of a value has the property. An object whose members are due is open already,
although it is no frame yet. -/
def Reading.IsHeld (p : Nat → Json → Prop) (depth : Nat) : Reading → Prop
  | .firstMember => 0 < depth
  | .nextMember members | .colon members _ | .string (.key members) _ =>
    ∃ inner, depth = inner + 1 ∧ AreHeld p inner members
  | .constant _ v | .done v => p depth v
  | .number n => n.Fits
  | .value | .firstItem | .nextItem | .string .value _ => True

namespace State

variable {s t : State} {frames : List Frame} {c : Char}

/-- All that the machine has read has the property. -/
def IsHeld (p : Nat → Json → Prop) (s : State) : Prop :=
  ∃ depth, Frame.AreHeld p depth s.frames ∧ s.reading.IsHeld p depth

theorem isHeld_begin (hp : Built p) (hframes : Frame.AreHeld p depth frames)
    (h : begin frames c = .ok t) : t.IsHeld p := by
  have hsum := hframes.depth_add_length
  have hlimit : depthLimit = 128 := rfl
  unfold begin at h
  split at h
  · exact Except.ok.inj h ▸ ⟨depth, hframes, hp.null depth⟩
  · exact Except.ok.inj h ▸ ⟨depth, hframes, hp.bool depth true⟩
  · exact Except.ok.inj h ▸ ⟨depth, hframes, hp.bool depth false⟩
  · exact Except.ok.inj h ▸ ⟨depth, hframes, trivial⟩
  · split_ifs at h
    obtain ⟨inner, rfl⟩ : ∃ inner, depth = inner + 1 := Nat.exists_eq_succ_of_ne_zero (by omega)
    exact Except.ok.inj h ▸ ⟨inner, .array (List.forall_mem_nil _) hframes, trivial⟩
  · split_ifs at h
    have hinner : 0 < depth := by omega
    exact Except.ok.inj h ▸ ⟨depth, hframes, hinner⟩
  · split at h
    · rename_i hstart
      exact Except.ok.inj h ▸ ⟨depth, hframes, Numbering.fits_start hstart⟩
    · cases h

theorem isHeld_follow (hp : Built p) (hframes : Frame.AreHeld p depth frames) (hv : p depth v)
    (h : follow frames v c = .ok t) : t.IsHeld p := by
  unfold follow at h
  split at h
  · exact Except.ok.inj h ▸ ⟨depth, hframes, hv⟩
  · cases hframes with
    | nil => cases h
    | array held outside =>
      have hitems := List.forall_mem_cons.2 ⟨hv, held⟩
      simp only at h
      split_ifs at h
      · exact Except.ok.inj h ▸ ⟨depth, .array hitems outside, trivial⟩
      · refine Except.ok.inj h ▸ ⟨depth + 1, outside, hp.array depth _ fun w hw => ?_⟩
        exact hitems w (List.mem_reverse.1 hw)
    | @object _ members key outer held outside =>
      have hmembers : AreHeld p depth (insertMember key v members) := held.insertMember hv
      simp only at h
      split_ifs at h
      · exact Except.ok.inj h ▸ ⟨depth + 1, outside, depth, rfl, hmembers⟩
      · exact Except.ok.inj h ▸ ⟨depth + 1, outside, hp.object depth _ hmembers.1 hmembers.2⟩

/-- An octet more leaves the property with all that has been read. -/
theorem IsHeld.step (hp : Built p) {b : UInt8} (hs : s.IsHeld p) (h : s.step b = .ok t) :
    t.IsHeld p := by
  obtain ⟨frames, reading⟩ := s
  obtain ⟨depth, hframes, hreading⟩ := hs
  cases reading with
  | value =>
    simp only [State.step] at h
    split_ifs at h
    · exact Except.ok.inj h ▸ ⟨depth, hframes, hreading⟩
    · exact isHeld_begin hp hframes h
  | firstItem =>
    simp only [State.step] at h
    split_ifs at h
    · exact Except.ok.inj h ▸ ⟨depth, hframes, hreading⟩
    · obtain rfl := Except.ok.inj h
      have hempty : ∀ depth, p (depth + 1) (.array []) := fun depth =>
        hp.array depth [] (List.forall_mem_nil _)
      cases hframes with
      | nil => exact ⟨_, .nil, hempty _⟩
      | array _ outside | object _ outside => exact ⟨_, outside, hempty _⟩
    · exact isHeld_begin hp hframes h
  | nextItem =>
    simp only [State.step] at h
    split_ifs at h
    · exact Except.ok.inj h ▸ ⟨depth, hframes, hreading⟩
    · exact isHeld_begin hp hframes h
  | firstMember =>
    obtain ⟨inner, rfl⟩ : ∃ inner, depth = inner + 1 :=
      Nat.exists_eq_succ_of_ne_zero (Nat.ne_of_gt hreading)
    simp only [State.step] at h
    split_ifs at h
    · exact Except.ok.inj h ▸ ⟨inner + 1, hframes, hreading⟩
    · refine Except.ok.inj h ▸ ⟨inner + 1, hframes, ?_⟩
      exact hp.object inner [] .nil (List.forall_mem_nil _)
    · exact Except.ok.inj h ▸ ⟨inner + 1, hframes, inner, rfl, .nil, List.forall_mem_nil _⟩
  | nextMember members =>
    simp only [State.step] at h
    split_ifs at h
    · exact Except.ok.inj h ▸ ⟨depth, hframes, hreading⟩
    · exact Except.ok.inj h ▸ ⟨depth, hframes, hreading⟩
  | colon members key =>
    simp only [State.step] at h
    split_ifs at h
    · exact Except.ok.inj h ▸ ⟨depth, hframes, hreading⟩
    · obtain ⟨inner, rfl, hmembers⟩ := hreading
      exact Except.ok.inj h ▸ ⟨inner, .object hmembers hframes, trivial⟩
  | constant rest v =>
    simp only [State.step] at h
    split at h
    · exact isHeld_follow hp hframes hreading h
    · split_ifs at h
      exact Except.ok.inj h ▸ ⟨depth, hframes, hreading⟩
    · split_ifs at h
      exact Except.ok.inj h ▸ ⟨depth, hframes, hreading⟩
  | number n =>
    simp only [State.step] at h
    split at h
    · cases h
    · rename_i hstep
      exact Except.ok.inj h ▸ ⟨depth, hframes, Numbering.fits_step hstep⟩
    · split at h
      · rename_i hfinish
        exact isHeld_follow hp hframes (hreading.holds_of_finish hp hfinish) h
      · cases h
  | string role q =>
    simp only [State.step] at h
    split at h
    · cases h
    · have hrole : (Reading.string role ‹Quoting›).IsHeld p depth := by
        cases role <;> exact hreading
      exact Except.ok.inj h ▸ ⟨depth, hframes, hrole⟩
    · cases role with
      | value => exact Except.ok.inj h ▸ ⟨depth, hframes, hp.string depth _⟩
      | key members => exact Except.ok.inj h ▸ ⟨depth, hframes, hreading⟩
  | done v => exact isHeld_follow hp hframes hreading h

theorem IsHeld.run (hp : Built p) {count : Nat} {bs : List UInt8} (hs : s.IsHeld p)
    (h : s.run count bs = .ok t) : t.IsHeld p := by
  induction bs generalizing s count with
  | nil => exact Except.ok.inj h ▸ hs
  | cons b bs ih =>
    rw [State.run] at h
    split at h
    · rename_i hstep
      exact ih (hs.step hp hstep) h
    · cases h

theorem IsHeld.finish (hp : Built p) (hs : s.IsHeld p) (h : s.finish = .ok v) :
    p (depthLimit - 1) v := by
  obtain ⟨frames, reading⟩ := s
  obtain ⟨depth, hframes, hreading⟩ := hs
  cases reading with
  | number n =>
    cases hnumber : n.finish with
    | error defect =>
      simp only [State.finish, hnumber] at h
      cases h
    | ok w =>
      simp only [State.finish, hnumber] at h
      cases hframes with
      | nil => exact Except.ok.inj h ▸ hreading.holds_of_finish hp hnumber
      | array | object => cases h
  | done w =>
    cases hframes with
    | nil => exact Except.ok.inj h ▸ hreading
    | array | object => cases h
  | _ => cases h

end State

/-- The property holds of whatever is read from a text. -/
theorem Built.of_read (hp : Built p) {text : List UInt8} (h : read text = .ok v) :
    p (depthLimit - 1) v := by
  have hstart : (⟨[], .value⟩ : State).IsHeld p := ⟨_, .nil, trivial⟩
  rw [read] at h
  split at h
  · cases h
  · rename_i s hrun
    have hs : s.IsHeld p := hstart.run hp hrun
    split at h
    · rename_i hfinish
      exact Except.ok.inj h ▸ hs.finish hp hfinish
    · cases h

end SmartContract.Json
