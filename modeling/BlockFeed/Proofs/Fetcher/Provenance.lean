import BlockFeed.Proofs.Feed.Accordance
import BlockFeed.Proofs.Fetcher.Ledger

/-!
# Where blocks come from

The fetcher learns the tip of a block from the cache and its body from the node, and it asks for the body
only after it has read the tip. When what it is told informs of the history of the chain, tip and body
belong to one settled block (`Learnt.settled`).
-/

namespace BlockFeed.Fetcher

open Surroundings (Event Query)

variable {node : History} {since now now' : Nat} {events : List Event} {block : Block}

/-- The tips that have been read and the bodies that have been fetched belong to settled blocks. -/
structure Learnt (node : History) (now : Nat) (events : List Event) : Prop where
  tips : ∀ height tip, Read events height tip → node.SettledTip now tip
  bodies : ∀ point body, ⟨.fetchBlock point, .ok body⟩ ∈ events →
    ∃ block, node.Settled now block ∧ block.tip.point = point ∧ block.body = body

theorem learnt_nil : Learnt node now [] where
  tips := by
    rintro height tip ⟨text, hmem, -⟩
    cases hmem
  bodies := by
    intro point body hmem
    cases hmem

theorem Learnt.mono (h : Learnt node now events) (hle : now ≤ now') : Learnt node now' events where
  tips height tip hread := (h.tips height tip hread).mono hle
  bodies point body hmem := by
    obtain ⟨block, hsettled, hblock⟩ := h.bodies point body hmem
    exact ⟨block, hsettled.mono hle, hblock⟩

/-- An answer that informs of the history tells of settled blocks only, provided that the bodies asked
for are those of tips that have been read. -/
theorem Learnt.cons (h : Learnt node since events) {query : Query} {answer : query.Answer}
    (hsince : since ≤ now) (hinforms : node.Informs since now query answer)
    (hwanted : ∀ point, query = .fetchBlock point →
      ∃ height tip, Read events height tip ∧ tip.point = point) :
    Learnt node now (⟨query, answer⟩ :: events) where
  tips height tip hread := by
    obtain ⟨text, hmem, htip⟩ := hread
    rcases List.mem_cons.mp hmem with heq | hmem
    · cases heq
      obtain ⟨block, hsettled, hblock, -⟩ := (hinforms text rfl).settled rfl htip
      exact ⟨block, hsettled, hblock⟩
    · exact (h.tips height tip ⟨text, hmem, htip⟩).mono hsince
  bodies point body hmem := by
    rcases List.mem_cons.mp hmem with heq | hmem
    · cases heq
      obtain ⟨height, tip, hread, rfl⟩ := hwanted point rfl
      obtain ⟨block, hsettled, rfl⟩ := h.tips height tip hread
      obtain ⟨t, ht, -, found, hfound, hpoint, hbody⟩ := hinforms body rfl
      -- the block was settled before the node was asked, so it is the one that the node has found
      obtain rfl : found = block := Chain.eq_of_point_eq hfound (hsettled t ht) hpoint
      exact ⟨found, hsettled.mono hsince, rfl, hbody⟩
    · obtain ⟨block, hsettled, hblock⟩ := h.bodies point body hmem
      exact ⟨block, hsettled.mono hsince, hblock⟩

/-- A block with a tip that has been read and a body that has been fetched is settled. -/
theorem Learnt.settled (h : Learnt node now events) (hsupplied : Supplied events block) :
    node.Settled now block := by
  obtain ⟨known, hknown, htip⟩ := h.tips _ _ hsupplied.tip
  obtain ⟨fetched, hfetched, hpoint, hbody⟩ := h.bodies _ _ hsupplied.body
  obtain rfl : known = fetched := by
    apply hknown.eq_of_point_eq hfetched
    rw [htip, hpoint]
  obtain rfl : known = block := by
    cases known
    cases block
    simp_all
  exact hknown

end BlockFeed.Fetcher
