import SmartContract.Description.NameSite.Faults
import SmartContract.Proofs.Json.Pointer
import SmartContract.Proofs.Repeats

/-!
The places of names. A value has a name wherever a pointer to such a place leads to a text that is
not empty, whatever the value is like elsewhere. The places have an order, in which the names of a
value are listed.
-/

namespace SmartContract

open Json (Pointer)

/-- The pointer leads to a text that is not empty. -/
def Json.HasText (v : Json) (p : Pointer) (s : String) : Prop :=
  Pointer.resolve? v p = some (.string s) ∧ s ≠ ""

/-- The value has the text in the place of the name. -/
def Json.Names (v : Json) (n : Named) (s : String) : Prop := v.HasText n.pointer s

/-! ### The order of the places -/

namespace MapPart

theorem mem_all (part : MapPart) : part ∈ MapPart.all := by
  cases part <;> decide

theorem key_injective {p q : MapPart} (h : p.key = q.key) : p = q := by
  cases p <;> cases q <;> first | rfl | exact absurd h (by decide)

/-- The place of a part among the parts of a map. -/
def index : MapPart → Nat
  | key1 => 0
  | key2 => 1
  | value => 2

theorem pairwise_all : all.Pairwise fun p q => p.index < q.index := by decide

end MapPart

namespace Named

/-- The way to the place through the sections of a description, in numbers. -/
def position : Named → List Nat
  | contract => [0]
  | method i => [1, i]
  | argument i j => [1, i, j]
  | stateVariable i => [2, i]
  | field i j => [2, i, j]
  | map i => [3, i]
  | item i part => [3, i, part.index]
  | entry i part k => [3, i, part.index, k]
  | transaction i => [4, i]

/-- The one place comes before the other: by sections, and in a section from thing to thing, each
before the things in it. -/
def Before (n m : Named) : Prop := n.position < m.position

instance (n m : Named) : Decidable (n.Before m) :=
  inferInstanceAs (Decidable (n.position < m.position))

theorem not_before_of_before (n m : Named) (h : n.Before m) : ¬ m.Before n := lt_asymm h

theorem holder_injective {n m : Named} (h : n.holder = m.holder) : n = m := by
  cases n <;> cases m <;> simp_all [holder]
  · exact MapPart.key_injective h.2
  · exact MapPart.key_injective h.2.1

/-- Different names have different places. -/
theorem pointer_injective {n m : Named} (h : n.pointer = m.pointer) : n = m :=
  holder_injective (List.append_inj_left' h rfl)

/-- Of places on the way through one section, or of those in one thing, those with the smaller number
come first. -/
theorem before_of_prefix {n m : Named} {p : List Nat} {i j : Nat} (hn : p ++ [i] <+: n.position)
    (hm : p ++ [j] <+: m.position) (h : i < j) : n.Before m := by
  obtain ⟨q, hq⟩ := hn
  obtain ⟨r, hr⟩ := hm
  rw [Before, ← hq, ← hr, List.append_assoc, List.append_assoc]
  exact List.append_left_lt (List.cons_lt_cons_iff.2 (.inl h))

theorem before_of_append_prefix {n m : Named} {i : Nat} (h : n.position ++ [i] <+: m.position) :
    n.Before m := by
  obtain ⟨q, hq⟩ := h
  have hlt : n.position ++ [] < n.position ++ i :: q := List.append_left_lt (List.nil_lt_cons i q)
  rwa [List.append_nil, List.append_cons, hq] at hlt

/-- Lists of places stand in order one after the other if they belong to things with ascending
numbers. -/
theorem pairwise_flatMap {α : Type} {xs : List α} {index : α → Nat} {f : α → List NameSite}
    (p : List Nat) (hxs : xs.Pairwise fun x y => index x < index y)
    (hf : ∀ x ∈ xs, (f x).Pairwise fun s t => s.named.Before t.named)
    (hp : ∀ x ∈ xs, ∀ s ∈ f x, p ++ [index x] <+: s.named.position) :
    (xs.flatMap f).Pairwise fun s t => s.named.Before t.named := by
  refine List.pairwise_flatMap.2 ⟨hf, hxs.imp_of_mem ?_⟩
  intro x y hx hy hlt s hs t ht
  exact before_of_prefix (hp x hx s hs) (hp y hy t ht) hlt

end Named

/-! ### The names of a value -/

namespace Json

variable {v w : Json} {n m : Named} {s : String} {key : String} {i : Nat}

theorem mem_listed_iff : (w, i) ∈ v.listed key ↔
    Pointer.resolve? v [.member key, .item i] = some w := by
  rw [listed, List.mem_zipIdx_iff_getElem?]
  simp only [Pointer.resolve?, Step.resolve?]
  cases v.get? key with
  | none => simp
  | some u => cases h : u.items? <;> simp [h]

/-- The listed items have ascending indices. -/
theorem pairwise_listed (v : Json) (key : String) :
    (v.listed key).Pairwise fun x y => x.2 < y.2 :=
  pairwise_zipIdx _

/-- A pointer through an item leads where its rest leads from the item. -/
theorem hasText_cons_iff {p : Pointer} : v.HasText (.member key :: .item i :: p) s ↔
    ∃ w, (w, i) ∈ v.listed key ∧ w.HasText p s := by
  show Pointer.resolve? v ([.member key, .item i] ++ p) = some (.string s) ∧ s ≠ "" ↔ _
  rw [Pointer.resolve?_append, Option.bind_eq_bind, Option.bind_eq_some_iff]
  simp only [HasText, mem_listed_iff]
  constructor
  · rintro ⟨⟨w, hw, hs⟩, hne⟩
    exact ⟨w, hw, hs, hne⟩
  · rintro ⟨w, hw, hs, hne⟩
    exact ⟨⟨w, hw, hs⟩, hne⟩

theorem hasText_member_iff {p : Pointer} : v.HasText (.member key :: p) s ↔
    ∃ w, v.get? key = some w ∧ w.HasText p s := by
  rw [HasText, Pointer.resolve?, Option.bind_eq_bind, Option.bind_eq_some_iff]
  constructor
  · rintro ⟨⟨w, hw, hs⟩, hne⟩
    exact ⟨w, hw, hs, hne⟩
  · rintro ⟨w, hw, hs, hne⟩
    exact ⟨⟨w, hw, hs⟩, hne⟩

theorem mem_nameSite_iff : ⟨n, s⟩ ∈ w.nameSite m ↔ n = m ∧ w.HasText [.member m.key] s := by
  rw [nameSite, HasText]
  simp only [Pointer.resolve?, Step.resolve?]
  cases w.get? m.key with
  | none => simp
  | some u =>
    cases u with
    | string t =>
      show ⟨n, s⟩ ∈ (if t = "" then [] else [(⟨m, t⟩ : NameSite)]) ↔ _
      split
      · rename_i ht
        simp [ht]
      · rename_i ht
        simp only [List.mem_singleton, NameSite.mk.injEq, Option.bind_eq_bind, Option.bind_some,
          Option.some.injEq, string.injEq]
        exact and_congr_right fun _ => ⟨fun h => ⟨h.symm, h ▸ ht⟩, fun h => h.1.symm⟩
    | _ => simp [text?]

/-! ### The sections of a description -/

/-- The name of a thing and those of the things that it lists. -/
def sitesWith (named : Named) (key : String) (sub : Nat → Named) (v : Json) : List NameSite :=
  v.nameSite named ++ (v.listed key).flatMap fun x => x.1.nameSite (sub x.2)

/-- The names of a part of a map. -/
def partSites (i : Nat) (v : Json) (part : MapPart) : List NameSite :=
  match v.get? part.key with
  | some item => item.sitesWith (.item i part) "oneOf" (.entry i part)
  | none => []

/-- The names of a section of a description, by its number. -/
def sectionSites (v : Json) : Nat → List NameSite
  | 0 => v.nameSite .contract
  | 1 => (v.listed "methods").flatMap fun x => x.1.sitesWith (.method x.2) "args" (.argument x.2)
  | 2 => (v.listed "variables").flatMap fun x =>
    x.1.sitesWith (.stateVariable x.2) "fields" (.field x.2)
  | 3 => (v.listed "maps").flatMap fun x =>
    x.1.nameSite (.map x.2) ++ MapPart.all.flatMap (x.1.partSites x.2)
  | 4 => (v.listed "transactions").flatMap fun x => x.1.nameSite (.transaction x.2)
  | _ => []

theorem nameSites_eq_flatMap (v : Json) : v.nameSites = (List.range 5).flatMap v.sectionSites := by
  show _ = v.sectionSites 0 ++ (v.sectionSites 1 ++ (v.sectionSites 2 ++ (v.sectionSites 3
    ++ (v.sectionSites 4 ++ []))))
  rw [List.append_nil, ← List.append_assoc, ← List.append_assoc, ← List.append_assoc]
  rfl

theorem mem_sitesWith_iff {sub : Nat → Named} (hm : m.key = "name")
    (hsub : ∀ j, (sub j).key = "name") :
    ⟨n, s⟩ ∈ v.sitesWith m key sub ↔ n = m ∧ v.HasText [.member "name"] s ∨
      ∃ j, n = sub j ∧ v.HasText [.member key, .item j, .member "name"] s := by
  simp only [sitesWith, List.mem_append, mem_nameSite_iff, List.mem_flatMap, Prod.exists, hm, hsub,
    hasText_cons_iff]
  refine or_congr_right ⟨?_, ?_⟩
  · rintro ⟨w, j, hw, rfl, hs⟩
    exact ⟨j, rfl, w, hw, hs⟩
  · rintro ⟨j, rfl, w, hw, hs⟩
    exact ⟨w, j, hw, rfl, hs⟩

theorem mem_partSites_iff {part : MapPart} :
    ⟨n, s⟩ ∈ v.partSites i part ↔
      n = .item i part ∧ v.HasText [.member part.key, .member "name"] s ∨
      ∃ k, n = .entry i part k ∧
        v.HasText [.member part.key, .member "oneOf", .item k, .member "name"] s := by
  have hmember : ∀ p, v.HasText (.member part.key :: p) s ↔
      ∃ w, v.get? part.key = some w ∧ w.HasText p s := fun _ => hasText_member_iff
  simp only [partSites, hmember]
  cases v.get? part.key with
  | none => simp
  | some item => simpa using mem_sitesWith_iff rfl fun _ => rfl

theorem names_of_mem_sectionSites {c : Nat} (hc : c < 5) (h : ⟨n, s⟩ ∈ v.sectionSites c) :
    v.Names n s := by
  match c, hc with
  | 0, _ =>
    obtain ⟨rfl, hs⟩ := mem_nameSite_iff.1 h
    exact hs
  | 1, _ =>
    obtain ⟨⟨w, i⟩, hw, h⟩ := List.mem_flatMap.1 h
    obtain ⟨rfl, hs⟩ | ⟨j, rfl, hs⟩ := (mem_sitesWith_iff rfl fun _ => rfl).1 h
    · exact hasText_cons_iff.2 ⟨w, hw, hs⟩
    · exact hasText_cons_iff.2 ⟨w, hw, hs⟩
  | 2, _ =>
    obtain ⟨⟨w, i⟩, hw, h⟩ := List.mem_flatMap.1 h
    obtain ⟨rfl, hs⟩ | ⟨j, rfl, hs⟩ := (mem_sitesWith_iff rfl fun _ => rfl).1 h
    · exact hasText_cons_iff.2 ⟨w, hw, hs⟩
    · exact hasText_cons_iff.2 ⟨w, hw, hs⟩
  | 3, _ =>
    obtain ⟨⟨w, i⟩, hw, h⟩ := List.mem_flatMap.1 h
    obtain h | h := List.mem_append.1 h
    · obtain ⟨rfl, hs⟩ := mem_nameSite_iff.1 h
      exact hasText_cons_iff.2 ⟨w, hw, hs⟩
    · obtain ⟨part, -, h⟩ := List.mem_flatMap.1 h
      obtain ⟨rfl, hs⟩ | ⟨k, rfl, hs⟩ := mem_partSites_iff.1 h
      · exact hasText_cons_iff.2 ⟨w, hw, hs⟩
      · exact hasText_cons_iff.2 ⟨w, hw, hs⟩
  | 4, _ =>
    obtain ⟨⟨w, i⟩, hw, h⟩ := List.mem_flatMap.1 h
    obtain ⟨rfl, hs⟩ := mem_nameSite_iff.1 h
    exact hasText_cons_iff.2 ⟨w, hw, hs⟩

theorem exists_mem_sectionSites (h : v.Names n s) :
    ∃ c < 5, ⟨n, s⟩ ∈ v.sectionSites c := by
  have hmember : ∀ {w : Json} {i : Nat} {key : String} {f : Json × Nat → List NameSite},
      (w, i) ∈ v.listed key → ⟨n, s⟩ ∈ f (w, i) → ⟨n, s⟩ ∈ (v.listed key).flatMap f :=
    fun hw hs => List.mem_flatMap.2 ⟨_, hw, hs⟩
  cases n with
  | contract => exact ⟨0, by decide, mem_nameSite_iff.2 ⟨rfl, h⟩⟩
  | method i =>
    obtain ⟨w, hw, hs⟩ := hasText_cons_iff.1 h
    exact ⟨1, by decide, hmember hw ((mem_sitesWith_iff rfl fun _ => rfl).2 (.inl ⟨rfl, hs⟩))⟩
  | argument i j =>
    obtain ⟨w, hw, hs⟩ := hasText_cons_iff.1 h
    exact ⟨1, by decide, hmember hw ((mem_sitesWith_iff rfl fun _ => rfl).2 (.inr ⟨j, rfl, hs⟩))⟩
  | stateVariable i =>
    obtain ⟨w, hw, hs⟩ := hasText_cons_iff.1 h
    exact ⟨2, by decide, hmember hw ((mem_sitesWith_iff rfl fun _ => rfl).2 (.inl ⟨rfl, hs⟩))⟩
  | field i j =>
    obtain ⟨w, hw, hs⟩ := hasText_cons_iff.1 h
    exact ⟨2, by decide, hmember hw ((mem_sitesWith_iff rfl fun _ => rfl).2 (.inr ⟨j, rfl, hs⟩))⟩
  | map i =>
    obtain ⟨w, hw, hs⟩ := hasText_cons_iff.1 h
    exact ⟨3, by decide, hmember hw (List.mem_append_left _ (mem_nameSite_iff.2 ⟨rfl, hs⟩))⟩
  | item i part =>
    obtain ⟨w, hw, hs⟩ := hasText_cons_iff.1 h
    exact ⟨3, by decide, hmember hw (List.mem_append_right _ (List.mem_flatMap.2
      ⟨part, part.mem_all, mem_partSites_iff.2 (.inl ⟨rfl, hs⟩)⟩))⟩
  | entry i part k =>
    obtain ⟨w, hw, hs⟩ := hasText_cons_iff.1 h
    exact ⟨3, by decide, hmember hw (List.mem_append_right _ (List.mem_flatMap.2
      ⟨part, part.mem_all, mem_partSites_iff.2 (.inr ⟨k, rfl, hs⟩)⟩))⟩
  | transaction i =>
    obtain ⟨w, hw, hs⟩ := hasText_cons_iff.1 h
    exact ⟨4, by decide, hmember hw (mem_nameSite_iff.2 ⟨rfl, hs⟩)⟩

/-- The names that are listed are those that the value has in the places of names. -/
theorem mem_nameSites_iff : ⟨n, s⟩ ∈ v.nameSites ↔ v.Names n s := by
  rw [nameSites_eq_flatMap, List.mem_flatMap]
  simp only [List.mem_range]
  constructor
  · rintro ⟨c, hc, h⟩
    exact names_of_mem_sectionSites hc h
  · exact exists_mem_sectionSites

/-! ### The order of the names -/

theorem pairwise_nameSite (v : Json) (named : Named) :
    (v.nameSite named).Pairwise fun s t => s.named.Before t.named := by
  rw [nameSite]
  split
  · split
    · exact .nil
    · exact List.pairwise_singleton ..
  · exact .nil

theorem named_of_mem_nameSite {site : NameSite} (h : site ∈ v.nameSite m) : site.named = m :=
  (mem_nameSite_iff.1 h).1

theorem prefix_of_mem_nameSite {site : NameSite} (h : site ∈ v.nameSite m) :
    m.position <+: site.named.position :=
  named_of_mem_nameSite h ▸ List.prefix_rfl

section Thing

variable {α : Type} {xs : List α} {index : α → Nat} {f : α → List NameSite}

/-- The name of a thing stands in order with those of what is in it. -/
theorem pairwise_thing (hxs : xs.Pairwise fun x y => index x < index y)
    (hf : ∀ x ∈ xs, (f x).Pairwise fun s t => s.named.Before t.named)
    (hp : ∀ x ∈ xs, ∀ s ∈ f x, m.position ++ [index x] <+: s.named.position) :
    (v.nameSite m ++ xs.flatMap f).Pairwise fun s t => s.named.Before t.named := by
  refine List.pairwise_append.2
    ⟨v.pairwise_nameSite m, Named.pairwise_flatMap m.position hxs hf hp, ?_⟩
  intro s hs t ht
  obtain ⟨x, hx, ht⟩ := List.mem_flatMap.1 ht
  rw [named_of_mem_nameSite hs]
  exact Named.before_of_append_prefix (hp x hx t ht)

theorem prefix_of_mem_thing {site : NameSite}
    (hp : ∀ x ∈ xs, ∀ s ∈ f x, m.position ++ [index x] <+: s.named.position)
    (h : site ∈ v.nameSite m ++ xs.flatMap f) : m.position <+: site.named.position := by
  obtain h | h := List.mem_append.1 h
  · exact prefix_of_mem_nameSite h
  · obtain ⟨x, hx, h⟩ := List.mem_flatMap.1 h
    exact (List.prefix_append _ _).trans (hp x hx site h)

end Thing

/-- What a thing lists is on the way through it. -/
theorem prefix_of_mem_listed {sub : Nat → Named} (hsub : ∀ j, (sub j).position = m.position ++ [j]) :
    ∀ x ∈ v.listed key, ∀ s ∈ x.1.nameSite (sub x.2), m.position ++ [x.2] <+: s.named.position := by
  intro x _ s hs
  rw [← hsub]
  exact prefix_of_mem_nameSite hs

theorem pairwise_sitesWith {sub : Nat → Named} (hsub : ∀ j, (sub j).position = m.position ++ [j]) :
    (v.sitesWith m key sub).Pairwise fun s t => s.named.Before t.named :=
  pairwise_thing (v.pairwise_listed key) (fun x _ => x.1.pairwise_nameSite _)
    (prefix_of_mem_listed hsub)

theorem prefix_of_mem_partSites {part : MapPart} :
    ∀ s ∈ v.partSites i part, [3, i] ++ [part.index] <+: s.named.position := by
  intro s hs
  rw [partSites] at hs
  split at hs
  · exact prefix_of_mem_thing (m := .item i part) (prefix_of_mem_listed fun _ => rfl) hs
  · cases hs

theorem pairwise_partSites (i : Nat) (v : Json) (part : MapPart) :
    (v.partSites i part).Pairwise fun s t => s.named.Before t.named := by
  rw [partSites]
  split
  · exact pairwise_sitesWith fun _ => rfl
  · exact .nil

/-- The names of the things in a section are on the ways through these, each by itself. -/
theorem prefix_of_mem_method (x : Json × Nat) :
    ∀ s ∈ x.1.sitesWith (.method x.2) "args" (.argument x.2), [1, x.2] <+: s.named.position :=
  fun _ => prefix_of_mem_thing (prefix_of_mem_listed fun _ => rfl)

theorem prefix_of_mem_stateVariable (x : Json × Nat) :
    ∀ s ∈ x.1.sitesWith (.stateVariable x.2) "fields" (.field x.2),
      [2, x.2] <+: s.named.position :=
  fun _ => prefix_of_mem_thing (prefix_of_mem_listed fun _ => rfl)

theorem prefix_of_mem_map (x : Json × Nat) :
    ∀ s ∈ x.1.nameSite (.map x.2) ++ MapPart.all.flatMap (x.1.partSites x.2),
      [3, x.2] <+: s.named.position :=
  fun _ => prefix_of_mem_thing fun _ _ => prefix_of_mem_partSites

theorem prefix_of_mem_transaction (x : Json × Nat) :
    ∀ s ∈ x.1.nameSite (.transaction x.2), [4, x.2] <+: s.named.position :=
  fun _ => prefix_of_mem_nameSite

theorem pairwise_sectionSites (v : Json) (c : Nat) :
    (v.sectionSites c).Pairwise fun s t => s.named.Before t.named := by
  rw [sectionSites.eq_def]
  split
  · exact v.pairwise_nameSite _
  · exact Named.pairwise_flatMap [1] (v.pairwise_listed _)
      (fun _ _ => pairwise_sitesWith fun _ => rfl) fun x _ => prefix_of_mem_method x
  · exact Named.pairwise_flatMap [2] (v.pairwise_listed _)
      (fun _ _ => pairwise_sitesWith fun _ => rfl) fun x _ => prefix_of_mem_stateVariable x
  · exact Named.pairwise_flatMap [3] (v.pairwise_listed _)
      (fun x _ => pairwise_thing MapPart.pairwise_all (fun part _ => pairwise_partSites x.2 x.1 part)
        fun _ _ => prefix_of_mem_partSites) fun x _ => prefix_of_mem_map x
  · exact Named.pairwise_flatMap [4] (v.pairwise_listed _) (fun x _ => x.1.pairwise_nameSite _)
      fun x _ => prefix_of_mem_transaction x
  · exact .nil

theorem prefix_of_mem_sectionSites {c : Nat} {site : NameSite} (h : site ∈ v.sectionSites c) :
    [c] <+: site.named.position := by
  have hfirst : ∀ {key : String} {f : Json × Nat → List NameSite},
      (∀ x, ∀ s ∈ f x, [c, x.2] <+: s.named.position) → site ∈ (v.listed key).flatMap f →
        [c] <+: site.named.position := by
    intro key f hf hsite
    obtain ⟨x, -, hx⟩ := List.mem_flatMap.1 hsite
    exact (List.prefix_append [c] [x.2]).trans (hf x site hx)
  rw [sectionSites.eq_def] at h
  split at h
  · exact prefix_of_mem_nameSite h
  · exact hfirst prefix_of_mem_method h
  · exact hfirst prefix_of_mem_stateVariable h
  · exact hfirst prefix_of_mem_map h
  · exact hfirst prefix_of_mem_transaction h
  · cases h

/-- The names of a value are listed in the order of their places. -/
theorem pairwise_nameSites (v : Json) :
    v.nameSites.Pairwise fun s t => s.named.Before t.named := by
  rw [nameSites_eq_flatMap]
  exact Named.pairwise_flatMap [] List.pairwise_lt_range (fun c _ => v.pairwise_sectionSites c)
    fun _ _ _ => prefix_of_mem_sectionSites

end Json

end SmartContract
