import Mathlib
import Outreach.Automation.Stats
import Outreach.Proofs.Json.Records

/-! Counters as functions of the node: what an increase and a merge do to them, and what is read of them once they
are stored. -/
namespace Outreach

namespace NodeStats

theorem add_zero (a : NodeStats) : a.add .zero = a := rfl

theorem zero_add (a : NodeStats) : zero.add a = a := by simp [add, zero]

theorem add_assoc (a b c : NodeStats) : (a.add b).add c = a.add (b.add c) := by simp [add, Nat.add_assoc]

structure Fits (s : NodeStats) : Prop where
  total : s.total < 2 ^ 64
  success : s.success < 2 ^ 64
  error : s.error < 2 ^ 64

end NodeStats

namespace ExecutionStats
open Keyed

variable {s : ExecutionStats}

theorem counters_nil (n : String) : counters [] n = .zero := rfl

theorem counters_cons (k : String) (v : NodeStats) (s : ExecutionStats) (n : String) :
    counters ((k, v) :: s) n = if k = n then v else counters s n := by
  rw [counters, get?_cons]
  split <;> rfl

theorem counters_increase (s : ExecutionStats) (node : String) (amount : NodeStats) (n : String) :
    (s.increase node amount).counters n = if node = n then (s.counters n).add amount else s.counters n := by
  rw [increase, counters, get?_put]
  by_cases h : node = n
  · rw [if_pos h, if_pos h, h]
    rfl
  · rw [if_neg h, if_neg h, counters]

theorem increase_ascending (h : Ascending s) (node : String) (amount : NodeStats) :
    Ascending (s.increase node amount) :=
  put_ascending h

theorem merge_ascending (h : Ascending s) (delta : ExecutionStats) : Ascending (s.merge delta) := by
  induction delta generalizing s with
  | nil => exact h
  | cons e delta ih => exact ih (increase_ascending h e.1 e.2)

theorem counters_merge (s : ExecutionStats) {delta : ExecutionStats} (h : Ascending delta) (n : String) :
    (s.merge delta).counters n = (s.counters n).add (delta.counters n) := by
  induction delta generalizing s with
  | nil => rfl
  | cons e delta ih =>
    obtain ⟨k, v⟩ := e
    obtain ⟨hlt, hdelta⟩ := ascending_cons.mp h
    have hmerge : s.merge ((k, v) :: delta) = (s.increase k v).merge delta := rfl
    rw [hmerge, ih _ hdelta, counters_increase, counters_cons]
    by_cases hk : k = n
    · have hnone : counters delta n = .zero := by rw [counters, ← hk, get?_eq_none_of_lt hlt]; rfl
      rw [if_pos hk, if_pos hk, hnone, NodeStats.add_zero]
    · rw [if_neg hk, if_neg hk]

def errors (s : ExecutionStats) : Nat := (s.map (·.2.error)).sum

theorem errors_put (h : Ascending s) (node : String) (v : NodeStats) :
    errors (put node v s) + (s.counters node).error = s.errors + v.error := by
  induction s with
  | nil => simp [put, errors, counters_nil, NodeStats.zero]
  | cons e s ih =>
    obtain ⟨k, w⟩ := e
    obtain ⟨hlt, hs⟩ := ascending_cons.mp h
    rw [put, counters_cons]
    by_cases heq : node = k
    · simp [errors, heq]
      omega
    · rw [if_neg (by simpa using heq), if_neg (Ne.symm heq)]
      by_cases hk : node < k
      · have hnone : counters s node = .zero := by
          rw [counters, get?_eq_none_of_lt fun f hf => hk.trans (hlt f hf)]; rfl
        rw [if_pos hk, hnone]
        simp [errors, NodeStats.zero]
        omega
      · have hrest := ih hs
        rw [if_neg hk]
        simp only [errors, List.map_cons, List.sum_cons] at hrest ⊢
        omega

theorem errors_increase (h : Ascending s) (node : String) (amount : NodeStats) :
    (s.increase node amount).errors = s.errors + amount.error := by
  have hput := errors_put h node ((counters s node).add amount)
  simp only [NodeStats.add] at hput
  rw [increase, NodeStats.add]
  omega

section Stored
open Decode Json

theorem nat_docAt {k : Nat} (h : k < 2 ^ 64) (o : Origin) (limit n : Nat) :
    Decode.nat (2 ^ 64) o (docAt limit n (.nat k)) = .ok k := by
  have hread : Number.reread? (.int k) = some (.int k) := Number.reread?_int (by omega) (by omega)
  have hdoc : docAt limit n (.nat k) = .num (.int k) := by rw [Json.nat, docAt, hread]; rfl
  rw [hdoc, nat_int h]

theorem decode_encode {v : NodeStats} (h : v.Fits) (o : Origin) {limit n : Nat} (hn : n + 1 ≤ limit) :
    NodeStats.decode o (docAt limit n v.encode) = .ok v :=
  Fields.Reads.object_docAt (.ap (.ap (.map (.found (fun _ => rfl) (nat_docAt h.total o limit (n + 1))))
    (.found (fun _ => rfl) (nat_docAt h.success o limit (n + 1))))
    (.found (fun _ => rfl) (nat_docAt h.error o limit (n + 1)))) hn (by simp)

theorem keyedFrom_encode (hfits : ∀ e ∈ s, e.2.Fits) (o : Origin) {limit n : Nat} (hn : n + 1 ≤ limit) :
    keyedFrom NodeStats.decode o (memberDocs limit n (s.map fun e => (e.1, e.2.encode))) = .ok s := by
  induction s with
  | nil => rfl
  | cons e s ih =>
    obtain ⟨he, hs⟩ := List.forall_mem_cons.mp hfits
    rw [List.map_cons, memberDocs, keyedFrom, decode_encode he o hn, ih hs]
    rfl

theorem counters_of_mem (h : Ascending s) {e : String × NodeStats} (he : e ∈ s) : s.counters e.1 = e.2 := by
  rw [counters, get?_of_mem h.nodup he]
  rfl

theorem ofText_encode (h : Ascending s) (hfits : ∀ n, (s.counters n).Fits) :
    Decode.ofText ExecutionStats.decode s.encode.text = .ok s := by
  have hentries : ∀ e ∈ s, e.2.Fits := fun e he => counters_of_mem h he ▸ hfits e.1
  have hdoc : docAt depthLimit 0 s.encode = .obj (memberDocs depthLimit 1 (s.map fun e => (e.1, e.2.encode))) := by
    rw [encode, docAt, if_neg (by decide)]
  simp only [Decode.ofText, Json.read, readWithin_text, hdoc, ExecutionStats.decode, keyed]
  rw [keyedFrom_encode hentries .text (by decide), Except.map, ofList_of_ascending h]
  rfl

theorem ofText_nil : Decode.ofText ExecutionStats.decode (encode []).text = .ok [] :=
  ofText_encode ascending_nil fun _ => ⟨Nat.two_pow_pos 64, Nat.two_pow_pos 64, Nat.two_pow_pos 64⟩

theorem decode_ascending {o : Origin} {d : Doc} (h : ExecutionStats.decode o d = .ok s) : Ascending s := by
  rw [ExecutionStats.decode] at h
  unfold keyed at h
  split at h
  · rename_i ms
    cases hms : keyedFrom NodeStats.decode o ms with
    | error e => rw [hms] at h; cases h
    | ok entries => rw [hms] at h; cases h; exact ofList_ascending entries
  · cases h

theorem ofText_ascending {text : String} (h : Decode.ofText ExecutionStats.decode text = .ok s) : Ascending s := by
  unfold Decode.ofText at h
  dsimp only at h
  cases hd : ExecutionStats.decode .text (Json.read text).1 with
  | error e => rw [hd] at h; cases h
  | ok t =>
    rw [hd] at h
    cases hended : (Json.read text).2 with
    | false => rw [hended] at h; cases h
    | true => rw [hended] at h; cases h; exact decode_ascending hd

end Stored
end ExecutionStats
end Outreach
