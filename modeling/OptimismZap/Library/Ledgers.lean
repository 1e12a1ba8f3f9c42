import Mathlib.Data.Set.Card

/-!
# Ledgers of unique tokens and their histories

What a token ledger is for, without the tables that store it: every token has at
most one holder, one account approved to move it, and every holder has standing
operators.  A ledger is written by entries, and a sequence of entries is a
history if each of them fits the ledger it is entered in (`History`): a transfer
starts at the holder, with zero standing for nobody, and an approval names the
holder.

* `replay_append` and `history_append`: entering a sequence is entering its parts.
* `leads_custody`: in a history the transfers of each token form one path, from its
  holder before to its holder after.
* `held_add_departures`: an account holds as many tokens as have arrived at it and
  not departed.

The last part is the rules of the game: who may make which entry.  The `decision` on
a request is the list of entries it leads to, or a refusal; `Decided` has a case for
each request that is granted (`decision_eq_some_iff`).
-/

namespace OptimismZap

namespace Ledger

/-- One entry of a history. -/
inductive Entry (α τ : Type) where
  | transfer (fromAccount toAccount : α) (token : τ)
  | approval (holder approved : α) (token : τ)
  | approvalForAll (holder operator : α) (approved : Bool)
  deriving DecidableEq

end Ledger

/-- Who holds which token, and who else may move it. -/
@[ext] structure Ledger (α τ : Type) where
  holder : τ → Option α
  /-- Zero stands for nobody. -/
  approved : τ → α
  operators : α → α → Bool

namespace Ledger

variable {α τ : Type} [Zero α]

/-- Nobody holds anything. -/
def empty : Ledger α τ := ⟨fun _ => none, fun _ => 0, fun _ _ => false⟩

/-- The holder of a token, zero if there is none. -/
def holderOrZero (L : Ledger α τ) (token : τ) : α := (L.holder token).getD 0

/-- The tokens of an account. -/
def held (L : Ledger α τ) (a : α) : Set τ := {token | L.holder token = some a}

/-- The tokens that are held by somebody. -/
def existing (L : Ledger α τ) : Set τ := {token | L.holder token ≠ none}

/-- Nobody is not somebody, and there are finitely many tokens. -/
structure Sound (L : Ledger α τ) : Prop where
  holder_ne_zero : ∀ token, L.holder token ≠ some 0
  finite_existing : L.existing.Finite

theorem sound_empty : (empty : Ledger α τ).Sound where
  holder_ne_zero _ h := by cases h
  finite_existing := by simp [existing, empty]

theorem Sound.finite_held {L : Ledger α τ} (hL : L.Sound) (a : α) : (L.held a).Finite := by
  refine hL.finite_existing.subset fun token htoken => ?_
  have hholder : L.holder token = some a := htoken
  simp [existing, hholder]

/-! ## Paths -/

section Paths

variable {β : Type}

/-- The moves lead from the first account to the last, each starting where the one before
ended. -/
def Leads (a : β) : List (β × β) → β → Prop
  | [], b => a = b
  | (x, y) :: moves, b => x = a ∧ Leads y moves b

theorem leads_append {a b : β} {l l' : List (β × β)} :
    Leads a (l ++ l') b ↔ ∃ c, Leads a l c ∧ Leads c l' b := by
  induction l generalizing a with
  | nil => simp [Leads]
  | cons move l ih =>
    obtain ⟨x, y⟩ := move
    simp only [List.cons_append, Leads, ih]
    constructor
    · rintro ⟨rfl, c, hc⟩
      exact ⟨c, ⟨rfl, hc.1⟩, hc.2⟩
    · rintro ⟨c, ⟨rfl, hl⟩, hl'⟩
      exact ⟨rfl, c, hl, hl'⟩

end Paths

/-! ## Entries -/

section Entries

variable [DecidableEq α] [DecidableEq τ]

/-- The ledger with one more entry.  A transfer ends the approval of its token. -/
def enter (L : Ledger α τ) : Entry α τ → Ledger α τ
  | .transfer _ toAccount token =>
    { L with
      holder := Function.update L.holder token (some toAccount)
      approved := Function.update L.approved token 0 }
  | .approval _ approved token =>
    { L with approved := Function.update L.approved token approved }
  | .approvalForAll holder operator approved =>
    { L with
      operators := Function.update L.operators holder
        (Function.update (L.operators holder) operator approved) }

/-- The ledger after a sequence of entries. -/
def replay (L : Ledger α τ) (entries : List (Entry α τ)) : Ledger α τ := entries.foldl enter L

/-- The entry is true of the ledger it is entered in. -/
def Fits (L : Ledger α τ) : Entry α τ → Prop
  | .transfer fromAccount toAccount token =>
    toAccount ≠ 0 ∧ L.holder token = if fromAccount = 0 then none else some fromAccount
  | .approval holder _ token => L.holder token = some holder
  | .approvalForAll .. => True

/-- Every entry fits the ledger it is entered in. -/
def History (L : Ledger α τ) : List (Entry α τ) → Prop
  | [] => True
  | e :: entries => L.Fits e ∧ (L.enter e).History entries

variable {L : Ledger α τ} {entries entries' : List (Entry α τ)} {e : Entry α τ}

@[simp] theorem replay_nil : L.replay [] = L := rfl

@[simp] theorem replay_cons : L.replay (e :: entries) = (L.enter e).replay entries := rfl

theorem replay_append : L.replay (entries ++ entries') = (L.replay entries).replay entries' :=
  List.foldl_append

@[simp] theorem history_nil : L.History [] := trivial

@[simp] theorem history_cons :
    L.History (e :: entries) ↔ L.Fits e ∧ (L.enter e).History entries := Iff.rfl

theorem history_append : L.History (entries ++ entries') ↔
    L.History entries ∧ (L.replay entries).History entries' := by
  induction entries generalizing L with
  | nil => simp
  | cons e entries ih => simp only [List.cons_append, history_cons, replay_cons, ih, and_assoc]

/-! ## What an entry does to the holders -/

/-- The transfer of an entry, if it is one of this token. -/
def Entry.move (token : τ) : Entry α τ → Option (α × α)
  | .transfer fromAccount toAccount moved =>
    if moved = token then some (fromAccount, toAccount) else none
  | _ => none

/-- The transfers of a token, in order. -/
def custody (token : τ) (entries : List (Entry α τ)) : List (α × α) :=
  entries.filterMap (Entry.move token)

theorem Fits.holderOrZero_enter (h : L.Fits e) (token : τ) :
    Leads (L.holderOrZero token) (e.move token).toList ((L.enter e).holderOrZero token) := by
  cases e with
  | transfer fromAccount toAccount moved =>
    by_cases htoken : moved = token
    · subst htoken
      have hholder : L.holder moved = if fromAccount = 0 then none else some fromAccount := h.2
      simp only [Entry.move, if_pos, Option.toList_some]
      refine ⟨?_, ?_⟩
      · unfold holderOrZero
        rw [hholder]
        split
        · rename_i hzero
          exact hzero
        · rfl
      · show toAccount = _
        simp [holderOrZero, enter]
    · simp only [Entry.move, if_neg htoken, Option.toList_none]
      show L.holderOrZero token = _
      simp [holderOrZero, enter, Ne.symm htoken]
  | approval => rfl
  | approvalForAll => rfl

/-- **Every token is handed on.**  In a history its transfers lead from the holder before to the
holder after. -/
theorem leads_custody (h : L.History entries) (token : τ) :
    Leads (L.holderOrZero token) (custody token entries)
      ((L.replay entries).holderOrZero token) := by
  induction entries generalizing L with
  | nil => rfl
  | cons e entries ih =>
    have hcustody : custody token (e :: entries) =
        (e.move token).toList ++ custody token entries := by
      unfold custody
      cases hm : e.move token with
      | none => rw [List.filterMap_cons_none hm]; rfl
      | some m => rw [List.filterMap_cons_some hm]; rfl
    rw [hcustody, replay_cons, leads_append]
    exact ⟨_, h.1.holderOrZero_enter token, ih h.2⟩

theorem Fits.sound (h : L.Fits e) (hL : L.Sound) : (L.enter e).Sound := by
  cases e with
  | transfer fromAccount toAccount moved =>
    constructor
    · intro token
      simp only [enter, Function.update_apply]
      split
      · exact fun heq => h.1 (Option.some.inj heq)
      · exact hL.holder_ne_zero token
    · refine (hL.finite_existing.insert moved).subset ?_
      intro token htoken
      by_cases hmoved : token = moved
      · exact Or.inl hmoved
      · refine Or.inr ?_
        simpa [existing, enter, hmoved] using htoken
  | approval => exact ⟨hL.holder_ne_zero, hL.finite_existing⟩
  | approvalForAll => exact ⟨hL.holder_ne_zero, hL.finite_existing⟩

/-! ## Counting -/

/-- The entry brings a token to the account. -/
def Entry.arrivesAt (a : α) : Entry α τ → Bool
  | .transfer _ toAccount _ => toAccount = a
  | _ => false

/-- The entry takes a token from the account.  What departs from zero is created. -/
def Entry.departsFrom (a : α) : Entry α τ → Bool
  | .transfer fromAccount _ _ => fromAccount = a
  | _ => false

/-- One entry changes the number of tokens of an account by its arrival and its departure. -/
theorem Fits.ncard_held (h : L.Fits e) (hL : L.Sound) {a : α} (ha : a ≠ 0) :
    ((L.enter e).held a).ncard + (e.departsFrom a).toNat =
      (L.held a).ncard + (e.arrivesAt a).toNat := by
  cases e with
  | transfer fromAccount toAccount moved =>
    have hholder : L.holder moved = if fromAccount = 0 then none else some fromAccount := h.2
    -- before the transfer the account has the token exactly if it is the sender
    have hmem : moved ∈ L.held a ↔ fromAccount = a := by
      show L.holder moved = some a ↔ _
      rw [hholder]
      split
      · rename_i hzero
        simp [hzero, Ne.symm ha]
      · simp
    have hfinite := hL.finite_held a
    simp only [Entry.departsFrom, Entry.arrivesAt]
    by_cases hto : toAccount = a
    · have hafter : (L.enter (.transfer fromAccount toAccount moved)).held a =
          insert moved (L.held a) := by
        ext token
        by_cases hmoved : token = moved <;> simp [held, enter, hmoved, hto]
      rw [hafter]
      by_cases hfrom : fromAccount = a
      · rw [Set.insert_eq_of_mem (hmem.mpr hfrom)]
        simp [hto, hfrom]
      · rw [Set.ncard_insert_of_notMem (mt hmem.mp hfrom) hfinite]
        simp [hto, hfrom]
    · have hafter : (L.enter (.transfer fromAccount toAccount moved)).held a =
          L.held a \ {moved} := by
        ext token
        by_cases hmoved : token = moved <;> simp [held, enter, hmoved, hto]
      rw [hafter]
      by_cases hfrom : fromAccount = a
      · have hcard := Set.ncard_sdiff_singleton_add_one (hmem.mpr hfrom) hfinite
        simpa [hto, hfrom] using hcard
      · rw [Set.sdiff_singleton_eq_self (mt hmem.mp hfrom)]
        simp [hto, hfrom]
  | approval => rfl
  | approvalForAll => rfl

/-- **What an account holds is what has arrived and not departed.** -/
theorem held_add_departures (h : L.History entries) (hL : L.Sound) {a : α} (ha : a ≠ 0) :
    ((L.replay entries).held a).ncard + entries.countP (Entry.departsFrom a) =
      (L.held a).ncard + entries.countP (Entry.arrivesAt a) := by
  induction entries generalizing L with
  | nil => rfl
  | cons e entries ih =>
    have hstep := h.1.ncard_held hL ha
    have hrest := ih h.2 (h.1.sound hL)
    rw [List.countP_cons, List.countP_cons, replay_cons]
    cases hd : e.departsFrom a <;> cases hr : e.arrivesAt a <;> simp_all <;> omega

/-- The token an entry creates. -/
def Entry.created : Entry α τ → Option τ
  | .transfer fromAccount _ token => if fromAccount = 0 then some token else none
  | _ => none

/-- The tokens created by a sequence of entries, in order. -/
def created (entries : List (Entry α τ)) : List τ := entries.filterMap Entry.created

end Entries

/-! ## The rules -/

/-- What an account may ask for. -/
inductive Request (α τ : Type) where
  | approve (toAccount : α) (token : τ)
  | approveForAll (operator : α) (approved : Bool)
  | transfer (fromAccount toAccount : α) (token : τ)
  | create (toAccount : α) (token : τ)
  deriving DecidableEq

/-- The account is the holder or one of his operators. -/
def Controls (L : Ledger α τ) (sender a : α) : Prop := sender = a ∨ L.operators a sender = true

/-- The account may move tokens of `a`, or this one at least. -/
def MayMove (L : Ledger α τ) (sender a : α) (token : τ) : Prop :=
  L.Controls sender a ∨ L.approved token = sender

section Rules

variable [DecidableEq α]

instance {L : Ledger α τ} {sender a : α} : Decidable (L.Controls sender a) :=
  inferInstanceAs (Decidable (_ ∨ _))

instance {L : Ledger α τ} {sender a : α} {token : τ} : Decidable (L.MayMove sender a token) :=
  inferInstanceAs (Decidable (_ ∨ _))

/-- The entries a request leads to, unless it is refused. -/
def decision (L : Ledger α τ) (sender : α) : Request α τ → Option (List (Entry α τ))
  | .approve toAccount token =>
    match L.holder token with
    | none => none
    | some a =>
      if toAccount ≠ a ∧ L.Controls sender a then some [.approval a toAccount token] else none
  | .approveForAll operator approved =>
    if operator ≠ sender then some [.approvalForAll sender operator approved] else none
  | .transfer fromAccount toAccount token =>
    if L.holder token = some fromAccount ∧ toAccount ≠ 0 ∧ L.MayMove sender fromAccount token then
      some [.approval fromAccount 0 token, .transfer fromAccount toAccount token]
    else none
  | .create toAccount token =>
    if toAccount ≠ 0 ∧ L.holder token = none then some [.transfer 0 toAccount token] else none

/-- Everything a decision can be. -/
inductive Decided (L : Ledger α τ) (sender : α) : Request α τ → List (Entry α τ) → Prop
  | approve (toAccount : α) (token : τ) (a : α) (hholder : L.holder token = some a)
      (hto : toAccount ≠ a) (hcontrols : L.Controls sender a) :
      Decided L sender (.approve toAccount token) [.approval a toAccount token]
  | approveForAll (operator : α) (approved : Bool) (hne : operator ≠ sender) :
      Decided L sender (.approveForAll operator approved)
        [.approvalForAll sender operator approved]
  | transfer (fromAccount toAccount : α) (token : τ) (hholder : L.holder token = some fromAccount)
      (hto : toAccount ≠ 0) (hmay : L.MayMove sender fromAccount token) :
      Decided L sender (.transfer fromAccount toAccount token)
        [.approval fromAccount 0 token, .transfer fromAccount toAccount token]
  | create (toAccount : α) (token : τ) (hto : toAccount ≠ 0) (hholder : L.holder token = none) :
      Decided L sender (.create toAccount token) [.transfer 0 toAccount token]

variable {L : Ledger α τ} {sender : α} {r : Request α τ} {entries : List (Entry α τ)}

theorem decision_eq_some_iff : L.decision sender r = some entries ↔ L.Decided sender r entries := by
  constructor
  · intro h
    cases r with
    | approve toAccount token =>
      cases hholder : L.holder token with
      | none => simp [decision, hholder] at h
      | some a =>
        simp only [decision, hholder] at h
        obtain ⟨⟨hto, hcontrols⟩, heq⟩ := Option.ite_none_right_eq_some.mp h
        cases heq
        exact .approve toAccount token a hholder hto hcontrols
    | approveForAll operator approved =>
      obtain ⟨hne, heq⟩ := Option.ite_none_right_eq_some.mp h
      cases heq
      exact .approveForAll operator approved hne
    | transfer fromAccount toAccount token =>
      obtain ⟨⟨hholder, hto, hmay⟩, heq⟩ := Option.ite_none_right_eq_some.mp h
      cases heq
      exact .transfer fromAccount toAccount token hholder hto hmay
    | create toAccount token =>
      obtain ⟨⟨hto, hholder⟩, heq⟩ := Option.ite_none_right_eq_some.mp h
      cases heq
      exact .create toAccount token hto hholder
  · intro h
    cases h with
    | approve toAccount token a hholder hto hcontrols =>
      simp only [decision, hholder]
      exact if_pos ⟨hto, hcontrols⟩
    | approveForAll operator approved hne => exact if_pos hne
    | transfer fromAccount toAccount token hholder hto hmay => exact if_pos ⟨hholder, hto, hmay⟩
    | create toAccount token hto hholder => exact if_pos ⟨hto, hholder⟩

variable [DecidableEq τ]

/-- **A token leaves its holder by a transfer only**, asked for by somebody who may move it. -/
theorem Decided.transfer_of_holder_ne (h : L.Decided sender r entries) {token : τ} {a : α}
    (hbefore : L.holder token = some a) (hafter : (L.replay entries).holder token ≠ some a) :
    ∃ b, r = .transfer a b token ∧ L.MayMove sender a token ∧
      (L.replay entries).holder token = some b := by
  cases h with
  | approve => exact absurd hbefore hafter
  | approveForAll => exact absurd hbefore hafter
  | transfer fromAccount toAccount moved hholder hto hmay =>
    by_cases htoken : token = moved
    · subst htoken
      obtain rfl := Option.some.inj (hbefore.symm.trans hholder)
      exact ⟨toAccount, rfl, hmay, by simp [enter]⟩
    · exact absurd hbefore (by simpa [enter, htoken] using hafter)
  | create toAccount created hto hholder =>
    have htoken : token ≠ created := by
      rintro rfl
      rw [hbefore] at hholder
      cases hholder
    exact absurd hbefore (by simpa [enter, htoken] using hafter)

/-- **An operator is made by his principal only.** -/
theorem Decided.approveForAll_of_operators (h : L.Decided sender r entries) {a operator : α}
    (hbefore : L.operators a operator ≠ true)
    (hafter : (L.replay entries).operators a operator = true) :
    sender = a ∧ r = .approveForAll operator true := by
  cases h with
  | approve => exact absurd hafter hbefore
  | approveForAll operator' approved hne =>
    by_cases ha : a = sender
    · subst ha
      by_cases ho : operator = operator'
      · subst ho
        have happroved : approved = true := by simpa [enter] using hafter
        exact ⟨rfl, by rw [happroved]⟩
      · exact absurd (by simpa [enter, ho] using hafter) hbefore
    · exact absurd (by simpa [enter, ha] using hafter) hbefore
  | transfer => exact absurd hafter hbefore
  | create => exact absurd hafter hbefore

/-- **An account is approved by who controls the holder only.** -/
theorem Decided.approve_of_approved (h : L.Decided sender r entries) {token : τ} {b : α}
    (hb : b ≠ 0) (hbefore : L.approved token ≠ b)
    (hafter : (L.replay entries).approved token = b) :
    r = .approve b token ∧ ∃ a, L.holder token = some a ∧
      (L.replay entries).holder token = some a ∧ L.Controls sender a := by
  have hne : ∀ token', (Function.update L.approved token' 0) token = b → False := by
    intro token' heq
    by_cases htoken : token = token'
    · subst htoken
      rw [Function.update_self] at heq
      exact hb heq.symm
    · rw [Function.update_of_ne htoken] at heq
      exact hbefore heq
  cases h with
  | approve toAccount token' a hholder hto hcontrols =>
    by_cases htoken : token = token'
    · subst htoken
      have heq : toAccount = b := by simpa [enter] using hafter
      exact ⟨by rw [heq], a, hholder, hholder, hcontrols⟩
    · exact absurd (by simpa [enter, htoken] using hafter) hbefore
  | approveForAll => exact absurd hafter hbefore
  | transfer fromAccount toAccount token' =>
    exact (hne token' (by simpa [enter] using hafter)).elim
  | create toAccount token' => exact (hne token' hafter).elim

/-- **An approval that stands has seen no transfer.** -/
theorem Decided.holder_eq_of_approved (h : L.Decided sender r entries) {token : τ} {a b : α}
    (hb : b ≠ 0) (hholder : L.holder token = some a)
    (hafter : (L.replay entries).approved token = b) :
    (L.replay entries).holder token = some a := by
  by_contra hne
  obtain ⟨toAccount, rfl, -⟩ := h.transfer_of_holder_ne hholder hne
  cases h
  exact hb (by simpa [enter] using hafter.symm)

end Rules

/-! ## Renaming -/

section Renaming

variable {τ' : Type}

/-- The token an entry is about. -/
def Entry.token? : Entry α τ → Option τ
  | .transfer _ _ token => some token
  | .approval _ _ token => some token
  | .approvalForAll .. => none

/-- The same entry, about a token of another name. -/
def Entry.map (f : τ → τ') : Entry α τ → Entry α τ'
  | .transfer fromAccount toAccount token => .transfer fromAccount toAccount (f token)
  | .approval holder approved token => .approval holder approved (f token)
  | .approvalForAll holder operator approved => .approvalForAll holder operator approved

/-- The token a request is about. -/
def Request.token? : Request α τ → Option τ
  | .approve _ token => some token
  | .approveForAll .. => none
  | .transfer _ _ token => some token
  | .create _ token => some token

/-- The same request, about a token of another name. -/
def Request.map (f : τ → τ') : Request α τ → Request α τ'
  | .approve toAccount token => .approve toAccount (f token)
  | .approveForAll operator approved => .approveForAll operator approved
  | .transfer fromAccount toAccount token => .transfer fromAccount toAccount (f token)
  | .create toAccount token => .create toAccount (f token)

/-- The second ledger knows the tokens of the list, under other names. -/
structure Renames (f : τ → τ') (tokens : List τ) (L : Ledger α τ) (L' : Ledger α τ') : Prop where
  holder_eq : ∀ t ∈ tokens, L'.holder (f t) = L.holder t
  approved_eq : ∀ t ∈ tokens, L'.approved (f t) = L.approved t
  operators_eq : L'.operators = L.operators

variable {f : τ → τ'} {tokens : List τ} {L : Ledger α τ} {L' : Ledger α τ'}

/-- What is decided about a token is entered about this token. -/
theorem Decided.token?_eq {sender : α} {r : Request α τ} {entries : List (Entry α τ)}
    (h : L.Decided sender r entries) :
    ∀ e ∈ entries, ∀ t, e.token? = some t → r.token? = some t := by
  cases h <;> simp [Entry.token?, Request.token?]

omit [Zero α] in
theorem Renames.controls_iff (h : Renames f tokens L L') {sender a : α} :
    L'.Controls sender a ↔ L.Controls sender a := by
  unfold Controls
  rw [h.operators_eq]

omit [Zero α] in
theorem Renames.mayMove_iff (h : Renames f tokens L L') {sender a : α} {token : τ}
    (htoken : token ∈ tokens) : L'.MayMove sender a (f token) ↔ L.MayMove sender a token := by
  unfold MayMove
  rw [h.controls_iff, h.approved_eq token htoken]

/-- Names make no difference to the rules. -/
theorem Renames.decision_map [DecidableEq α] (h : Renames f tokens L L') {sender : α}
    {r : Request α τ} (hr : ∀ t, r.token? = some t → t ∈ tokens) :
    L'.decision sender (r.map f) = (L.decision sender r).map (List.map (Entry.map f)) := by
  cases r with
  | approve toAccount token =>
    simp only [Request.map, decision, h.holder_eq token (hr token rfl)]
    cases L.holder token with
    | none => rfl
    | some a =>
      simp only [h.controls_iff, apply_ite (Option.map (List.map (Entry.map f)))]
      rfl
  | approveForAll operator approved =>
    simp only [Request.map, decision, apply_ite (Option.map (List.map (Entry.map f)))]
    rfl
  | transfer fromAccount toAccount token =>
    simp only [Request.map, decision, h.holder_eq token (hr token rfl),
      h.mayMove_iff (hr token rfl), apply_ite (Option.map (List.map (Entry.map f)))]
    rfl
  | create toAccount token =>
    simp only [Request.map, decision, h.holder_eq token (hr token rfl),
      apply_ite (Option.map (List.map (Entry.map f)))]
    rfl

variable [DecidableEq α] [DecidableEq τ] [DecidableEq τ']

/-- An entry about a token that shares its name with no other keeps the correspondence. -/
theorem Renames.enter (h : Renames f tokens L L') {e : Entry α τ}
    (he : ∀ t, e.token? = some t → ∀ x ∈ tokens, f x = f t → x = t) :
    Renames f tokens (L.enter e) (L'.enter (e.map f)) := by
  have hupdate : ∀ {β : Type} {t : τ} {b : β} {g : τ → β} {g' : τ' → β},
      (∀ x ∈ tokens, f x = f t → x = t) → (∀ x ∈ tokens, g' (f x) = g x) →
        ∀ x ∈ tokens, Function.update g' (f t) b (f x) = Function.update g t b x := by
    intro β t b g g' ht hg x hx
    by_cases heq : x = t
    · rw [heq, Function.update_self, Function.update_self]
    · rw [Function.update_of_ne heq, Function.update_of_ne (mt (ht x hx) heq), hg x hx]
  cases e with
  | transfer fromAccount toAccount token =>
    exact ⟨hupdate (he token rfl) h.holder_eq, hupdate (he token rfl) h.approved_eq,
      h.operators_eq⟩
  | approval holder approved token =>
    exact ⟨h.holder_eq, hupdate (he token rfl) h.approved_eq, h.operators_eq⟩
  | approvalForAll holder operator approved =>
    refine ⟨h.holder_eq, h.approved_eq, ?_⟩
    simp only [Ledger.enter, Entry.map, h.operators_eq]

/-- A transfer makes its token known. -/
theorem Renames.enter_transfer (h : Renames f tokens L L') {fromAccount toAccount : α} {token : τ}
    (htoken : ∀ x ∈ tokens, f x = f token → x = token) :
    Renames f (tokens ++ [token]) (L.enter (.transfer fromAccount toAccount token))
      (L'.enter (.transfer fromAccount toAccount (f token))) := by
  have hold := h.enter (e := .transfer fromAccount toAccount token) fun t ht => by
    obtain rfl := Option.some.inj ht
    exact htoken
  refine ⟨fun t ht => ?_, fun t ht => ?_, hold.operators_eq⟩
  · rcases List.mem_append.mp ht with ht | ht
    · exact hold.holder_eq t ht
    · rw [List.mem_singleton.mp ht]
      simp [Ledger.enter]
  · rcases List.mem_append.mp ht with ht | ht
    · exact hold.approved_eq t ht
    · rw [List.mem_singleton.mp ht]
      simp [Ledger.enter]

/-- Entries about known tokens keep the correspondence. -/
theorem Renames.replay (h : Renames f tokens L L')
    (hf : ∀ x ∈ tokens, ∀ t ∈ tokens, f x = f t → x = t)
    {entries : List (Entry α τ)} (he : ∀ e ∈ entries, ∀ t, e.token? = some t → t ∈ tokens) :
    Renames f tokens (L.replay entries) (L'.replay (entries.map (Entry.map f))) := by
  induction entries generalizing L L' with
  | nil => exact h
  | cons e entries ih =>
    refine ih (h.enter fun t ht x hx hfx => ?_) fun e' he' => he e' (List.mem_cons_of_mem _ he')
    exact hf x hx t (he e List.mem_cons_self t ht) hfx

end Renaming

end Ledger

end OptimismZap
