import Parley.Proofs.Talk.Evolution
import Parley.Proofs.Talk.Interpretation

/-!
# What is remembered

A history holds what was added to it, the latest first, as far as there is room. What it holds is
decided by the additions alone: nothing but an addition changes it, an addition puts one item in
front, and what has no room any more is forgotten at the other end. The requests of a user and the
replies to them are remembered in this way, whatever the bot does while it answers.

Main results:

* `History.toList_addAll` — the items of a history after any number of additions;
* `History.recalls_latest` — what can be looked up in a history that was empty before them;
* `Bot.requests_chats`, `Bot.replies_chats` — a conversation adds its requests and its replies, and
  nothing else.
-/

namespace Parley

namespace History

variable {α : Type}

/-- Adds items one after the other. -/
def addAll (h : History α) (items : List α) : History α := items.foldl add h

/-- One addition in steps: a history without room stays as it is, and a full one forgets its oldest
item. -/
theorem toList_add_eq_if (h : History α) (a : α) :
    (h.add a).toList =
      if h.capacity = 0 then h.toList
      else a :: if h.size = h.capacity then h.toList.dropLast else h.toList := by
  have hle : h.toList.length ≤ h.capacity := h.length_le_capacity
  rw [toList_add]
  split
  · next hzero =>
    -- without room there is nothing in it
    rw [hzero, Nat.le_zero, List.length_eq_zero_iff] at hle
    rw [hzero, hle, List.take_zero]
  · next hpos =>
    obtain ⟨k, hk⟩ := Nat.exists_eq_succ_of_ne_zero hpos
    rw [hk, List.take_succ_cons]
    split
    · next hfull =>
      have hlength : h.toList.length = k + 1 := hfull
      rw [List.dropLast_eq_take, hlength, Nat.add_sub_cancel]
    · next hroom =>
      have hlength : h.toList.length ≠ k + 1 := hroom
      rw [List.take_of_length_le (by omega)]

/-- **Of what was there and what was added, the latest items are left,** as many as there is room
for. -/
theorem toList_addAll (h : History α) (items : List α) :
    (h.addAll items).toList = (items.reverse ++ h.toList).take h.capacity := by
  -- what an addition forgets would have no room later either
  induction items generalizing h with
  | nil =>
    have hle : h.toList.length ≤ h.capacity := h.length_le_capacity
    rw [List.reverse_nil, List.nil_append, List.take_of_length_le hle]
    rfl
  | cons a items ih =>
    have hmore : (h.addAll (a :: items)).toList = ((h.add a).addAll items).toList := rfl
    rw [hmore, ih, capacity_add, toList_add, List.reverse_cons, List.append_assoc,
      List.singleton_append, List.take_append, List.take_append, List.take_take,
      Nat.min_eq_left (Nat.sub_le _ _)]

theorem get?_eq (h : History α) (n : Nat) :
    h.get? n = if n = 0 then none else h.toList[n - 1]? := by
  cases n <;> rfl

/-- The items that are added to an empty history are found by their place from the end, as far as
there is room for them. -/
theorem get?_addAll_empty (capacity : Nat) (items : List α) (n : Nat) :
    ((empty capacity).addAll items).get? n =
      if 1 ≤ n ∧ n ≤ min capacity items.length then items[items.length - n]? else none := by
  have hempty : (empty capacity : History α).capacity = capacity := rfl
  rw [get?_eq, toList_addAll, toList_empty, List.append_nil, hempty, List.getElem?_take]
  by_cases hzero : n = 0
  · rw [if_pos hzero, if_neg (by omega)]
  · rw [if_neg hzero]
    by_cases hroom : n - 1 < capacity
    · rw [if_pos hroom]
      by_cases hadded : n ≤ items.length
      · rw [if_pos (by omega), List.getElem?_reverse (by omega)]
        congr 1
        omega
      · rw [if_neg (by omega), List.getElem?_eq_none (by rw [List.length_reverse]; omega)]
    · rw [if_neg hroom, if_neg (by omega)]

/-- Without room nothing is remembered. -/
example :
    ((empty 0).addAll ["a", "b"]).toList = [] ∧ ((empty 0).addAll ["a", "b"]).get? 1 = none := by
  decide

end History

/-! ## Conversations -/

namespace Bot

variable {bot : Bot}

/-- A request is remembered, and so is its reply. -/
theorem histories_chat (text : String) (w : World) :
    ((bot.chat text).run w).2.user.requests = w.user.requests.add text ∧
      ((bot.chat text).run w).2.user.replies =
        w.user.replies.add ((bot.chat text).run w).1 := by
  obtain ⟨w', hevolves, huser⟩ := bot.user_run_chat text w
  have hkept := hevolves.user_eq
  have hrequests : w'.user.requests = w.user.requests.add text := by
    rw [hkept]
    rfl
  have hreplies : w'.user.replies = w.user.replies := by
    rw [hkept]
    rfl
  rw [huser]
  generalize (bot.chat text).run w = chatted
  exact ⟨hrequests, congrArg (History.add · chatted.1) hreplies⟩

/-- **A conversation adds its requests to those that are remembered,** and nothing else, whatever
the templates and the elements of the host do. -/
theorem requests_chats (bot : Bot) (texts : List String) (w : World) :
    ((texts.mapM bot.chat).run w).2.user.requests = w.user.requests.addAll texts := by
  induction texts generalizing w with
  | nil => rfl
  | cons text texts ih =>
    rw [run_mapM_cons]
    have hfirst := (bot.histories_chat text w).1
    generalize (bot.chat text).run w = chatted at hfirst ⊢
    rw [ih, hfirst]
    rfl

/-- **It adds the replies to them** in the same way. -/
theorem replies_chats (bot : Bot) (texts : List String) (w : World) :
    ((texts.mapM bot.chat).run w).2.user.replies =
      w.user.replies.addAll ((texts.mapM bot.chat).run w).1 := by
  induction texts generalizing w with
  | nil => rfl
  | cons text texts ih =>
    rw [run_mapM_cons]
    have hfirst := (bot.histories_chat text w).2
    generalize (bot.chat text).run w = chatted at hfirst ⊢
    rw [ih, hfirst]
    rfl

/-- What is looked up among the requests of a user who had made none before. -/
theorem request_chats (bot : Bot) (texts : List String) {w : World} {capacity : Nat}
    (hnew : w.user.requests = .empty capacity) (n : Nat) :
    ((texts.mapM bot.chat).run w).2.user.request bot.config n =
      (if 1 ≤ n ∧ n ≤ min capacity texts.length then texts[texts.length - n]? else none).getD
        bot.config.defaultHistory := by
  rw [User.request, requests_chats, hnew, History.get?_addAll_empty]

end Bot

end Parley
