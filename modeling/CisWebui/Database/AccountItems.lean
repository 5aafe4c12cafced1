import CisWebui.Database.AccountCalls

/-!
# The items of the account book

What the book says, item by item, and which items an entry changes.
-/

namespace CisWebui

open Cpp Foundation

namespace AccountBook

inductive Item where
  | admin (email : Str)
  | pass (email : Str)
  | apiAccessKey (email : Str)
  | rights (email project : Str)
  | project (name : Str)
  | token (value : Str)
deriving DecidableEq, Repr

def Item.Value : Item -> Type
  | admin _ => Option Bool
  | pass _ => Option Str
  | apiAccessKey _ => Option Str
  | rights _ _ => Option ProjectRights
  | project _ => Bool
  | token _ => Option (Str × Nat)

/-- What the book says about an item; about an account that is not there it says
nothing. -/
def read (book : AccountBook) : (i : Item) -> i.Value
  | Item.admin email => (book.find? email).map Account.admin
  | Item.pass email => (book.find? email).map Account.pass
  | Item.apiAccessKey email => (book.find? email).bind Account.apiAccessKey
  | Item.rights email project => book.rights email project
  | Item.project name => decide (name ∈ book.projects)
  | Item.token value => book.tokens value

/-- From the one book to the other nothing has changed but as `may` says. -/
def Changes (may : (i : Item) -> i.Value -> Prop) (book book' : AccountBook) : Prop :=
  forall i, book'.read i = book.read i ∨ may i (book'.read i)

variable {book : AccountBook} {may : (i : Item) -> i.Value -> Prop}

theorem changes_refl (book : AccountBook) : Changes may book book :=
  fun _ => Or.inl rfl

/-- Two changes, of which the second one may do no more than both together. -/
theorem Changes.trans {may' : (i : Item) -> i.Value -> Prop} {book' book'' : AccountBook}
    (h : Changes may book book') (h' : Changes may' book' book'')
    (hmay : forall i new, may' i new -> may i new) : Changes may book book'' := by
  intro i
  rcases h' i with hsame | hnew
  · rw [hsame]
    exact h i
  · exact Or.inr (hmay i _ hnew)

theorem changes_attempt {α : Type} {result : α × AccountBook} (fault : Option ErrorCode)
    (h : Changes may book result.2) : Changes may book (book.attempt fault result).2 := by
  cases fault with
  | some ec => exact changes_refl book
  | none => exact h

theorem changes_onAccount {write : AccountBook} (fault : Option ErrorCode) (email : Str)
    (h : Changes may book write) :
    Changes may book (book.onAccount fault email write).2 := by
  apply changes_attempt
  split
  · exact h
  · exact changes_refl book

/-!
## Passwords and administrators
-/

theorem any_admin_iff {email : Str} :
    (book.find? email).any Account.admin = true <->
      book.read (Item.admin email) = some true := by
  show _ <-> (book.find? email).map Account.admin = some true
  cases book.find? email with
  | none => exact ⟨nofun, nofun⟩
  | some account =>
      show account.admin = true <-> some account.admin = some true
      rw [Option.some.injEq]

theorem any_pass_iff {email pass : Str} :
    ((book.find? email).any fun account => account.pass = pass) = true <->
      book.read (Item.pass email) = some pass := by
  show _ <-> (book.find? email).map Account.pass = some pass
  cases book.find? email with
  | none => exact ⟨nofun, nofun⟩
  | some account =>
      show decide (account.pass = pass) = true <-> some account.pass = some pass
      rw [decide_eq_true_eq, Option.some.injEq]

/-!
## Looking up an account behind an entry
-/

theorem find?_email {email : Str} {account : Account} (h : book.find? email = some account) :
    account.email = email := by
  have hfound := List.find?_some h
  exact of_decide_eq_true hfound

theorem find?_openAccount (account : Account) (email : Str) :
    (book.openAccount account).find? email =
      (book.find? email).or (if account.email = email then some account else none) := by
  unfold openAccount find?
  rw [List.find?_append, List.find?_singleton]
  simp only [decide_eq_true_eq]

theorem find?_changeAccount {f : Account -> Account}
    (hf : forall account, (f account).email = account.email) (email other : Str) :
    (book.changeAccount email f).find? other =
      if other = email then (book.find? email).map f else book.find? other := by
  have hkept : forall account : Account,
      (if account.email = email then f account else account).email = account.email := by
    intro account
    split
    · exact hf account
    · rfl
  have hfind : (book.changeAccount email f).find? other =
      (book.find? other).map fun account =>
        if account.email = email then f account else account := by
    unfold changeAccount find?
    rw [List.find?_map]
    simp only [Function.comp_def, hkept]
  rw [hfind]
  cases hfound : book.find? other with
  | none =>
      split
      · next hsame => rw [← hsame, hfound]; rfl
      · rfl
  | some account =>
      rw [Option.map_some, find?_email hfound]
      split
      · next hsame => rw [← hsame, hfound]; rfl
      · rfl

theorem find?_closeAccount (email other : Str) :
    (book.closeAccount email).find? other =
      if other = email then none else book.find? other := by
  unfold closeAccount find?
  rw [List.find?_filter]
  split
  · next hsame =>
      rw [hsame, List.find?_eq_none]
      intro account _
      simp
  · next hother =>
      congr 1
      funext account
      rw [Bool.eq_iff_iff, decide_eq_true_eq]
      grind

theorem foldl_enterProject (names : List Str) (book : AccountBook) :
    names.foldl enterProject book =
      { book with projects := book.projects ∪ names.toFinset } := by
  induction names generalizing book with
  | nil => rw [List.foldl_nil, List.toFinset_nil, Finset.union_empty]
  | cons name rest ih =>
      rw [List.foldl_cons, ih, List.toFinset_cons]
      unfold enterProject
      rw [Finset.insert_union, Finset.union_insert]

/-!
## What the entries change
-/

/-- An entry that concerns one account. -/
theorem changes_account {book' : AccountBook} {email : Str}
    (hother : forall other, other ≠ email -> book'.find? other = book.find? other)
    (hadmin : book'.read (Item.admin email) = book.read (Item.admin email) ∨
      may (Item.admin email) (book'.read (Item.admin email)))
    (hpass : book'.read (Item.pass email) = book.read (Item.pass email) ∨
      may (Item.pass email) (book'.read (Item.pass email)))
    (hkey : book'.read (Item.apiAccessKey email) = book.read (Item.apiAccessKey email) ∨
      may (Item.apiAccessKey email) (book'.read (Item.apiAccessKey email)))
    (hrights : forall other project,
      book'.read (Item.rights other project) = book.read (Item.rights other project) ∨
        may (Item.rights other project) (book'.read (Item.rights other project)))
    (hprojects : book'.projects = book.projects)
    (htoken : forall value, book'.read (Item.token value) = book.read (Item.token value) ∨
      may (Item.token value) (book'.read (Item.token value))) :
    Changes may book book' := by
  intro i
  cases i with
  | admin other =>
      by_cases hemail : other = email
      · rw [hemail]
        exact hadmin
      · exact Or.inl (congrArg (Option.map Account.admin) (hother other hemail))
  | pass other =>
      by_cases hemail : other = email
      · rw [hemail]
        exact hpass
      · exact Or.inl (congrArg (Option.map Account.pass) (hother other hemail))
  | apiAccessKey other =>
      by_cases hemail : other = email
      · rw [hemail]
        exact hkey
      · exact Or.inl (congrArg (Option.bind · Account.apiAccessKey) (hother other hemail))
  | rights other project => exact hrights other project
  | project name =>
      left
      show decide (name ∈ book'.projects) = decide (name ∈ book.projects)
      rw [hprojects]
  | token value => exact htoken value

theorem changes_openAccount {account : Account} (hnew : book.find? account.email = none)
    (hkey : account.apiAccessKey = none)
    (hadmin : may (Item.admin account.email) (some account.admin))
    (hpass : may (Item.pass account.email) (some account.pass)) :
    Changes may book (book.openAccount account) := by
  have hself : (book.openAccount account).find? account.email = some account := by
    rw [find?_openAccount, if_pos rfl, hnew, Option.none_or]
  refine @changes_account book may _ account.email ?_ ?_ ?_ ?_ (fun _ _ => Or.inl rfl) rfl
    (fun _ => Or.inl rfl)
  · intro other hne
    rw [find?_openAccount, if_neg hne.symm, Option.or_none]
  · right
    have hread : (book.openAccount account).read (Item.admin account.email) =
        some account.admin := congrArg (Option.map Account.admin) hself
    rw [hread]
    exact hadmin
  · right
    have hread : (book.openAccount account).read (Item.pass account.email) =
        some account.pass := congrArg (Option.map Account.pass) hself
    rw [hread]
    exact hpass
  · left
    show Option.bind _ _ = Option.bind _ _
    rw [hself, hnew]
    exact hkey

theorem changes_changeAccount {f : Account -> Account}
    (hf : forall account, (f account).email = account.email) (email : Str)
    (hadmin : forall account,
      (f account).admin = account.admin ∨ may (Item.admin email) (some (f account).admin))
    (hpass : forall account,
      (f account).pass = account.pass ∨ may (Item.pass email) (some (f account).pass))
    (hkey : forall account, (f account).apiAccessKey = account.apiAccessKey ∨
      may (Item.apiAccessKey email) (f account).apiAccessKey) :
    Changes may book (book.changeAccount email f) := by
  have hself : (book.changeAccount email f).find? email = (book.find? email).map f := by
    rw [find?_changeAccount hf, if_pos rfl]
  cases hfind : book.find? email with
  | none =>
      -- a change of an account that is not there
      rw [hfind] at hself
      refine @changes_account book may _ email ?_ (Or.inl ?_) (Or.inl ?_) (Or.inl ?_)
        (fun _ _ => Or.inl rfl) rfl (fun _ => Or.inl rfl)
      · intro other hne
        rw [find?_changeAccount hf, if_neg hne]
      · exact congrArg (Option.map Account.admin) (hself.trans hfind.symm)
      · exact congrArg (Option.map Account.pass) (hself.trans hfind.symm)
      · exact congrArg (Option.bind · Account.apiAccessKey) (hself.trans hfind.symm)
  | some account =>
      rw [hfind] at hself
      refine @changes_account book may _ email ?_ ?_ ?_ ?_ (fun _ _ => Or.inl rfl) rfl
        (fun _ => Or.inl rfl)
      · intro other hne
        rw [find?_changeAccount hf, if_neg hne]
      · have hread : (book.changeAccount email f).read (Item.admin email) =
            some (f account).admin := congrArg (Option.map Account.admin) hself
        have hwas : book.read (Item.admin email) = some account.admin :=
          congrArg (Option.map Account.admin) hfind
        rw [hread, hwas]
        exact (hadmin account).imp_left (congrArg some)
      · have hread : (book.changeAccount email f).read (Item.pass email) =
            some (f account).pass := congrArg (Option.map Account.pass) hself
        have hwas : book.read (Item.pass email) = some account.pass :=
          congrArg (Option.map Account.pass) hfind
        rw [hread, hwas]
        exact (hpass account).imp_left (congrArg some)
      · have hread : (book.changeAccount email f).read (Item.apiAccessKey email) =
            (f account).apiAccessKey := congrArg (Option.bind · Account.apiAccessKey) hself
        have hwas : book.read (Item.apiAccessKey email) = account.apiAccessKey :=
          congrArg (Option.bind · Account.apiAccessKey) hfind
        rw [hread, hwas]
        exact hkey account

theorem changes_closeAccount (email : Str) (hadmin : may (Item.admin email) none)
    (hpass : may (Item.pass email) none) (hkey : may (Item.apiAccessKey email) none)
    (hrights : forall project, may (Item.rights email project) none)
    (htoken : forall value time, book.read (Item.token value) = some (email, time) ->
      may (Item.token value) none) :
    Changes may book (book.closeAccount email) := by
  have hself : (book.closeAccount email).find? email = none := by
    rw [find?_closeAccount, if_pos rfl]
  refine @changes_account book may _ email ?_ ?_ ?_ ?_ ?_ rfl ?_
  · intro other hne
    rw [find?_closeAccount, if_neg hne]
  · right
    have hread : (book.closeAccount email).read (Item.admin email) = none :=
      congrArg (Option.map Account.admin) hself
    rw [hread]
    exact hadmin
  · right
    have hread : (book.closeAccount email).read (Item.pass email) = none :=
      congrArg (Option.map Account.pass) hself
    rw [hread]
    exact hpass
  · right
    have hread : (book.closeAccount email).read (Item.apiAccessKey email) = none :=
      congrArg (Option.bind · Account.apiAccessKey) hself
    rw [hread]
    exact hkey
  · intro other project
    by_cases hemail : other = email
    · subst hemail
      right
      have hread : (book.closeAccount other).read (Item.rights other project) = none :=
        if_pos rfl
      rw [hread]
      exact hrights project
    · exact Or.inl (if_neg hemail)
  · intro value
    cases hvalue : book.tokens value with
    | none =>
        left
        have hread : (book.closeAccount email).read (Item.token value) = none :=
          congrArg (Option.filter _) hvalue
        exact hread.trans hvalue.symm
    | some token =>
        have hread : (book.closeAccount email).read (Item.token value) =
            (some token).filter fun token => token.1 ≠ email :=
          congrArg (Option.filter _) hvalue
        by_cases hemail : token.1 = email
        · right
          have hgone : (book.closeAccount email).read (Item.token value) = none := by
            rw [hread, Option.filter_some, hemail]
            exact if_neg (by simp)
          rw [hgone]
          apply htoken value token.2
          rw [← hemail]
          exact hvalue
        · left
          rw [hread, Option.filter_some, if_pos (decide_eq_true hemail)]
          exact hvalue.symm

theorem changes_setRights (email project : Str) (rights : ProjectRights)
    (h : may (Item.rights email project) (some rights)) :
    Changes may book (book.setRights email project rights) := by
  intro i
  cases i with
  | rights other name =>
      by_cases hsame : other = email ∧ name = project
      · have hread : (book.setRights email project rights).read (Item.rights other name) =
            some rights := if_pos hsame
        rw [hread]
        rcases hsame with ⟨rfl, rfl⟩
        exact Or.inr h
      · exact Or.inl (if_neg hsame)
  | _ => exact Or.inl rfl

theorem changes_issueToken (value email : Str) (time : Nat)
    (h : may (Item.token value) (some (email, time))) :
    Changes may book (book.issueToken value email time) := by
  intro i
  cases i with
  | token other =>
      by_cases hsame : other = value
      · have hread : (book.issueToken value email time).read (Item.token other) =
            some (email, time) := if_pos hsame
        rw [hread, hsame]
        exact Or.inr h
      · exact Or.inl (if_neg hsame)
  | _ => exact Or.inl rfl

theorem changes_strikeTokens (p : Str -> Nat -> Bool)
    (h : forall value email time, book.read (Item.token value) = some (email, time) ->
      p value time = true -> may (Item.token value) none) :
    Changes may book (book.strikeTokens p) := by
  intro i
  cases i with
  | token value =>
      cases hvalue : book.tokens value with
      | none =>
          left
          have hread : (book.strikeTokens p).read (Item.token value) = none :=
            congrArg (Option.filter _) hvalue
          exact hread.trans hvalue.symm
      | some token =>
          have hread : (book.strikeTokens p).read (Item.token value) =
              (some token).filter fun token => !p value token.2 :=
            congrArg (Option.filter _) hvalue
          rw [Option.filter_some] at hread
          cases hp : p value token.2 with
          | true =>
              right
              rw [hp] at hread
              rw [hread]
              exact h value token.1 token.2 hvalue hp
          | false =>
              left
              rw [hp] at hread
              exact hread.trans hvalue.symm
  | _ => exact Or.inl rfl

theorem changes_enterProjects (names : List Str)
    (h : forall name, name ∈ names -> may (Item.project name) true) :
    Changes may book (names.foldl enterProject book) := by
  rw [foldl_enterProject]
  intro i
  cases i with
  | project name =>
      by_cases hname : name ∈ names
      · right
        have hread : read { book with projects := book.projects ∪ names.toFinset }
            (Item.project name) = true :=
          decide_eq_true (Finset.mem_union_right _ (List.mem_toFinset.mpr hname))
        rw [hread]
        exact h name hname
      · left
        show decide (name ∈ book.projects ∪ names.toFinset) = decide (name ∈ book.projects)
        rw [decide_eq_decide, Finset.mem_union, List.mem_toFinset]
        exact ⟨fun hmem => hmem.resolve_right hname, Or.inl⟩
  | _ => exact Or.inl rfl

end AccountBook
end CisWebui
