import BuildMend.CommitService
import BuildMend.Proofs.Deeds

/-!
What a commit lookup makes of the replies of the web service.

* `Reply.value`, `Reply.holdsPath`, `Reply.commit`: what a reply gives to a request, to the question whether
  a directory exists, and to the question for the newest commit.
* `World.replyAt`: the replies from now on; behind the end of the script nothing is found.
* `World.Served`: one world is another in which some replies are used up.
* `CommitService.fetch_apply`, `CommitService.hasPath_apply`, `CommitService.latest_apply`: a lookup uses
  up one reply, and ends as that says.
-/

namespace BuildMend

open Act

/-! ### Replies -/

namespace Reply

/-- What a reply gives to a request: nothing if its status is none of success. -/
def value : Reply → Except Failure (Option Json)
  | .raises m => .error (.mishap m)
  | .answer status body =>
    if status != 200 then .ok none else (CommitService.readBody body).map some

/-- Whether a directory exists, by a reply. -/
def holdsPath (r : Reply) : Except Failure Bool :=
  r.value.map fun
    | none | some .null => false
    | some _ => true

/-- The newest commit, by a reply. -/
def commit (r : Reply) : Except Failure Json := r.value >>= CommitService.firstCommit

end Reply

namespace World

/-- What the web service answers to the `i`-th request from now on. -/
def replyAt (w : World) (i : Nat) : Reply := w.replies.getD i .missing

/-- In one world some replies of another are used up, and the web service has been asked. -/
structure Served (w : World) (n : Nat) (v : World) : Prop where
  tree : v.tree = w.tree
  clients : v.clients = w.clients
  replies : v.replies = w.replies.drop n

namespace Served

variable {w v u : World} {m n : Nat}

lemma refl (w : World) : w.Served 0 w := ⟨rfl, rfl, rfl⟩

lemma trans (h : w.Served m v) (h' : v.Served n u) : w.Served (m + n) u where
  tree := h'.tree.trans h.tree
  clients := h'.clients.trans h.clients
  replies := by rw [h'.replies, h.replies, List.drop_drop]

lemma told (h : w.Served n v) (es : List Event) : w.Served n (v.told es) :=
  ⟨h.tree, h.clients, h.replies⟩

lemma client_eq (h : w.Served n v) (i : Nat) : v.client i = w.client i := by
  rw [client, client, h.clients]

/-- The script goes on behind the replies that are used up. -/
lemma replyAt_eq (h : w.Served n v) (i : Nat) : v.replyAt i = w.replyAt (n + i) := by
  simp [replyAt, h.replies, List.getD_eq_getElem?_getD]

end Served

/-- A reply is one of the script's, or behind its end. -/
lemma replyAt_mem_drop (w : World) {n i : Nat} (h : n ≤ i) :
    w.replyAt i ∈ w.replies.drop n ∨ w.replyAt i = .missing := by
  have hdrop : w.replies[i]? = (w.replies.drop n)[i - n]? := by
    rw [List.getElem?_drop, Nat.add_sub_cancel' h]
  rw [replyAt, List.getD_eq_getElem?_getD, hdrop]
  cases hi : (w.replies.drop n)[i - n]? with
  | none => exact Or.inr rfl
  | some r => exact Or.inl (List.mem_of_getElem? hi)

lemma replyAt_congr {w v : World} (h : v.replies = w.replies) (i : Nat) : v.replyAt i = w.replyAt i := by
  rw [replyAt, replyAt, h]

end World

/-! ### Lookups -/

namespace CommitService

variable (l : CommitService) (w : World)

lemma nextReply_apply :
    nextReply w =
      match w.replies with
      | [] => (.ok .missing, w)
      | r :: rest => (.ok r, { w with replies := rest }) := by
  simp only [nextReply, bind_apply]
  show (match w.replies with | [] => _ | r :: rest => _ : Action Reply) w = _
  cases w.replies <;> rfl

/-- A reply is used up. -/
lemma exists_nextReply : ∃ v, nextReply w = (.ok (w.replyAt 0), v) ∧ w.Served 1 v := by
  rw [nextReply_apply]
  cases h : w.replies with
  | nil => exact ⟨w, by simp [World.replyAt, h], rfl, rfl, by simp [h]⟩
  | cons r rest => exact ⟨{ w with replies := rest }, by simp [World.replyAt, h], rfl, rfl, by simp [h]⟩

/-- A request uses up one reply, and ends in what that gives. -/
theorem fetch_apply (url : String) (parameters : List (String × Json)) :
    ∃ v, l.fetch url parameters w = ((w.replyAt 0).value, v) ∧ w.Served 1 v := by
  set asked : World := { w with past := .get ⟨url, parameters, l.headers, answerLimit⟩ :: w.past }
  obtain ⟨v, hv, hserved⟩ := exists_nextReply asked
  have hserved : w.Served 1 v := ⟨hserved.tree, hserved.clients, hserved.replies⟩
  have hfetch : l.fetch url parameters w = _ := (bind_of_ok rfl).trans (bind_of_ok hv)
  rw [hfetch]
  show ∃ u, _ = ((asked.replyAt 0).value, u) ∧ _
  cases asked.replyAt 0 with
  | raises m => exact ⟨v, rfl, hserved⟩
  | answer status body =>
    simp only [Reply.value]
    by_cases hstatus : (status != 200) = true
    · rw [if_pos hstatus, if_pos hstatus]
      exact ⟨_, rfl, hserved.told [_]⟩
    · rw [if_neg hstatus, if_neg hstatus]
      refine ⟨v, ?_, hserved⟩
      rw [bind_apply, Act.ofExcept]
      cases readBody body <;> rfl

/-- The question whether a directory exists uses up one reply. -/
theorem hasPath_apply (owner repo path : String) (branch : Option String) :
    ∃ v, l.hasPath owner repo path branch w = ((w.replyAt 0).holdsPath, v) ∧ w.Served 1 v := by
  obtain ⟨v, hv, hserved⟩ := l.fetch_apply w
    s!"{l.repository owner repo}/contents/{barePath path}" [("ref", branchValue branch)]
  refine ⟨v, ?_, hserved⟩
  rw [hasPath, bind_apply, hv, Reply.holdsPath]
  rcases (w.replyAt 0).value with f | _ | _ | _ <;> rfl

lemma firstCommit_apply {url : String} {parameters : List (String × Json)} :
    ∃ v, (do Act.ofExcept (firstCommit (← l.fetch url parameters))) w = ((w.replyAt 0).commit, v) ∧
      w.Served 1 v := by
  obtain ⟨v, hv, hserved⟩ := l.fetch_apply w url parameters
  refine ⟨v, ?_, hserved⟩
  rw [bind_apply, hv, Reply.commit]
  cases (w.replyAt 0).value <;> rfl

/-- The question for the newest commit of a directory uses up one reply. -/
theorem latestForPath_apply (owner repo path : String) (branch : Option String) :
    ∃ v, l.latestForPath owner repo path branch w = ((w.replyAt 0).commit, v) ∧ w.Served 1 v :=
  l.firstCommit_apply w

/-- The question for the newest commit of a branch uses up one reply. -/
theorem latest_apply (owner repo : String) (branch : Option String) :
    ∃ v, l.latest owner repo branch w = ((w.replyAt 0).commit, v) ∧ w.Served 1 v :=
  l.firstCommit_apply w

end CommitService

end BuildMend
