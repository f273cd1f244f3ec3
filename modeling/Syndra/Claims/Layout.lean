/-
How a token is laid out.

The rows of an accepted profile are placed from the smallest path to the largest, so a key
that is new at its level always comes after the keys already there.
-/

import Syndra.Claims.Validate
import Syndra.Claims.Words

namespace Syndra.Claims

open List Claim

/-! ### The order of rows -/

section Order

variable (lower : String → String) (hero : String)

instance : Std.TransCmp (keyLess lower) :=
  inferInstanceAs (Std.TransCmp (compareLex (compareOn lower) compare))

instance : Std.LawfulEqCmp (keyLess lower) where
  eq_of_compare := fun same => Std.LawfulEqCmp.eq_of_compare (Ordering.then_eq_eq.mp same).2

theorem pathLess_eq : pathLess lower = List.compareLex (keyLess lower) := by
  funext one other
  induction one generalizing other with
  | nil =>
    cases other with
    | nil | cons => rfl
  | cons _ _ ih =>
    cases other with
    | nil => rfl
    | cons => rw [pathLess,List.compareLex_cons_cons,ih]

instance : Std.TransCmp (pathLess lower) := pathLess_eq lower ▸ inferInstance

instance : Std.LawfulEqCmp (pathLess lower) := pathLess_eq lower ▸ inferInstance

instance : Std.TransCmp fun one other : Claim => pathLess lower one.path other.path where
  eq_swap := Std.OrientedCmp.eq_swap
  isLE_trans := Std.TransCmp.isLE_trans

/-- Rows without a path, then those under the roles key, then the rest. -/
def heroRank (c : Claim) : Option Bool := c.path.head?.map fun seg => decide (seg ≠ hero)

theorem claimLess_eq : claimLess lower hero =
    compareLex (compareOn (heroRank hero)) fun one other => pathLess lower one.path other.path := by
  funext one other
  unfold claimLess compareLex compareOn heroRank
  dsimp only
  cases one.path with
  | nil =>
    cases other.path with
    | nil | cons => rfl
  | cons seg =>
    cases other.path with
    | nil => rfl
    | cons key =>
      by_cases first : seg = hero
      · by_cases second : key = hero
        · simp [first,second]
        · simp [first,second]
          rfl
      · by_cases second : key = hero
        · simp [first,second]
          rfl
        · simp [first,second]

instance : Std.TransCmp (claimLess lower hero) := claimLess_eq lower hero ▸ inferInstance

instance : Std.Total fun one other : Claim => claimLess lower hero one other ≠ .gt where
  total one other := by
    have swap : claimLess lower hero other one = (claimLess lower hero one other).swap :=
      Std.OrientedCmp.eq_swap
    rw [swap]
    cases claimLess lower hero one other with
    | lt | eq => exact .inl nofun
    | gt => exact .inr nofun

instance : IsTrans Claim fun one other => claimLess lower hero one other ≠ .gt where
  trans one other third := by
    simp only [ne_eq,Ordering.ne_gt_iff_isLE]
    exact Std.TransCmp.isLE_trans

theorem ordered_pairwise (claims : List Claim) :
    (ordered lower claims).Pairwise fun one other =>
      claimLess lower (rolesKey claims) one other ≠ .gt :=
  pairwise_insertionSort _ claims

variable {lower}

variable {level : List String}

theorem pathLess_next {one other : List String} {key later : String}
    (order : pathLess lower one other ≠ .gt) (first : (level ++ [key]) <+: one)
    (second : (level ++ [later]) <+: other) : key = later ∨ keyLess lower key later = .lt := by
  induction level generalizing one other with
  | nil =>
    obtain ⟨_,rfl⟩ := first
    obtain ⟨_,rfl⟩ := second
    cases less : keyLess lower key later with
    | lt => exact .inr rfl
    | eq => exact .inl (Std.LawfulEqCmp.eq_of_compare less)
    | gt =>
      refine absurd ?_ order
      simp only [nil_append,singleton_append,pathLess,less]
      rfl
  | cons _ _ ih =>
    obtain ⟨tail,rfl⟩ := first
    obtain ⟨tail',rfl⟩ := second
    refine ih ?_ (prefix_append _ tail) (prefix_append _ tail')
    simpa only [cons_append,pathLess,Std.ReflCmp.compare_self,Ordering.then] using order

end Order

/-! ### The keys of a level -/

def keysAt : List String → Object → List String
  | [], o => o.map Prod.fst
  | seg :: rest, o =>
    match o.lookup seg with
    | some (.object child) => keysAt rest child
    | _ => []

def next : List String → List String → Option String
  | [], path => path.head?
  | _ :: _, [] => none
  | seg :: rest, key :: path => if seg = key then next rest path else none

variable {key : String} {path level : List String}

theorem next_eq_some :
    next level path = some key ↔ level ++ [key] <+: path := by
  induction level generalizing path with
  | nil =>
    cases path with
    | nil => simp [next]
    | cons => simp [next,eq_comm]
  | cons _ _ ih =>
    cases path with
    | nil => simp [next]
    | cons =>
      rw [next,cons_append,cons_prefix_cons]
      split
      · next same => rw [ih,and_iff_right same]
      · next different => simp [different]

theorem keys_setEntry {A : Type} {value : A} {o : List (String × A)} :
    (setEntry key value o).map Prod.fst = addWord (o.map Prod.fst) key := by
  induction o with
  | nil => rfl
  | cons entry rest ih =>
    rw [setEntry]
    split
    · next here => simp [addWord,here]
    · next elsewhere =>
      rw [map_cons,ih]
      have other : key ≠ entry.1 := fun same => elsewhere same.symm
      by_cases known : key ∈ rest.map Prod.fst
      · simp [addWord,known]
      · simp [addWord,known,other]

variable {v : Value} {o : Object}

theorem mem_keys_iff {A : Type} {o : List (String × A)} :
    key ∈ o.map Prod.fst ↔ o.lookup key ≠ none := by
  induction o with
  | nil => simp
  | cons entry _ ih =>
    by_cases same : key = entry.1 <;> simp [same]

theorem keysAt_nil : keysAt level [] = [] := by
  cases level with
  | nil | cons => rfl

variable {seg : String} {rest : List String}

theorem keysAt_setEntry {other : String} {value : Value} (different : other ≠ seg) :
    keysAt (other :: rest) (setEntry seg value o) = keysAt (other :: rest) o := by
  rw [keysAt,keysAt,lookup_setEntry,if_neg different]

theorem keysAt_setObject {child : Object} :
    keysAt (seg :: rest) (setEntry seg (.object child) o) = keysAt rest child := by
  rw [keysAt,lookup_setEntry,if_pos rfl]

theorem keysAt_place (free : Free path o) (above : ¬ path <+: level) :
    keysAt level (place v path o) = (next level path).toList.foldl addWord (keysAt level o) := by
  induction path generalizing o level with
  | nil => exact free.elim
  | cons seg rest ih =>
    have sets : ∃ value, place v (seg :: rest) o = setEntry seg value o ∧
        ∀ ls, level = seg :: ls → ∃ child, value = .object child ∧
          keysAt ls child = (next ls rest).toList.foldl addWord (keysAt level o) := by
      cases rest with
      | nil =>
        have unset : o.lookup seg = none := free
        refine ⟨v,by simp [place,unset],?_⟩
        rintro ls rfl
        exact absurd (cons_prefix_cons.mpr ⟨rfl, nil_prefix⟩) above
      | cons key later =>
        rcases free with unset | ⟨child,isChild,freeChild⟩
        · refine ⟨.object (place v (key :: later) []),by rw [place,unset],?_⟩
          rintro ls rfl
          refine ⟨_,rfl,?_⟩
          rw [ih (free_nil (cons_ne_nil key later)) fun lies =>
            above (cons_prefix_cons.mpr ⟨rfl,lies⟩),keysAt_nil,keysAt,unset]
        · refine ⟨.object (place v (key :: later) child),by rw [place,isChild],?_⟩
          rintro ls rfl
          refine ⟨_,rfl,?_⟩
          rw [ih freeChild fun lies => above (cons_prefix_cons.mpr ⟨rfl,lies⟩),keysAt,isChild]
    obtain ⟨value,placed,inside⟩ := sets
    rw [placed]
    cases level with
    | nil => exact keys_setEntry
    | cons _ ls =>
      rw [next]
      split
      · next same =>
        obtain ⟨_,rfl,keys⟩ := inside ls (by rw [same])
        rw [same,keysAt_setObject,keys,same]
      · next different => exact keysAt_setEntry different

/-! ### The rows of a token -/

section Rows

variable (p : Profile) (f : Facts)

def Claim.nextKey (level : List String) (c : Claim) : Option String :=
  if (c.value p f).isSome then next level c.path else none

def OutsideValues (level : List String) : Prop :=
  ∀ c ∈ p.claims, (c.value p f).isSome = true → ¬ c.path <+: level

variable {p f}

variable {key : String}

theorem nextKey_eq_some {c : Claim} : c.nextKey p f level = some key ↔
      (c.value p f).isSome = true ∧ level ++ [key] <+: c.path := by
  rw [nextKey,← next_eq_some]
  split
  · next valued => rw [and_iff_right valued]
  · next valueless => simp [valueless]

theorem keysAt_rows {rows : List Claim}
    (pairwise : rows.Pairwise fun one other => Apart one.path other.path)
    (free : ∀ row ∈ rows, Free row.path o)
    (above : ∀ row ∈ rows, (row.value p f).isSome = true → ¬ row.path <+: level) :
    keysAt level (rows.foldl (placeRow p f) o) =
      (rows.filterMap (nextKey p f level)).foldl addWord (keysAt level o) := by
  induction rows generalizing o with
  | nil => rfl
  | cons row _ ih =>
    obtain ⟨apart,later⟩ := pairwise_cons.mp pairwise
    rw [foldl_cons,ih later (fun other inRest => placeRow_apart (apart other inRest)
        (free other (mem_cons_of_mem _ inRest)))
      fun other inRest => above other (mem_cons_of_mem _ inRest)]
    have placed : keysAt level (placeRow p f o row) =
        (row.nextKey p f level).toList.foldl addWord (keysAt level o) := by
      cases value : row.value p f with
      | none => simp [placeRow,nextKey,value]
      | some =>
        rw [placeRow,nextKey,value]
        exact keysAt_place (free row mem_cons_self) (above row mem_cons_self (value ▸ rfl))
    rw [placed,filterMap_cons]
    cases row.nextKey p f level with
    | none | some => rfl

variable {lower : String → String}

theorem ordered_apart (distinct : DistinctPaths p.claims) :
    (ordered lower p.claims).Pairwise fun one other => Apart one.path other.path :=
  ((perm_insertionSort _ _).pairwise_iff Apart.symm).mpr distinct.2

theorem mem_ordered {c : Claim} : c ∈ ordered lower p.claims ↔ c ∈ p.claims :=
  (perm_insertionSort _ _).mem_iff

theorem keysAt_shape (distinct : DistinctPaths p.claims)
    (outside : OutsideValues p f level) :
    keysAt level (shape lower p f) =
      ((ordered lower p.claims).filterMap (nextKey p f level)).foldl addWord [] := by
  rw [shape,keysAt_rows (ordered_apart distinct)
    (fun row inRows => free_nil (distinct.1 row (mem_ordered.mp inRows)))
    fun row inRows => outside row (mem_ordered.mp inRows),keysAt_nil]

theorem mem_keysAt_shape (distinct : DistinctPaths p.claims)
    (outside : OutsideValues p f level) :
    key ∈ keysAt level (shape lower p f) ↔
      ∃ c ∈ p.claims, (c.value p f).isSome = true ∧ level ++ [key] <+: c.path := by
  rw [keysAt_shape distinct outside,mem_foldl_addWord]
  simp only [not_mem_nil,false_or,mem_filterMap,nextKey_eq_some,mem_ordered]

/-- One key stands before another at a level. At the top the roles key is first. -/
def LevelLess (lower : String → String) (hero : String) : List String → String → String → Prop
  | [], key, later => later ≠ hero ∧ (key = hero ∨ keyLess lower key later = .lt)
  | _ :: _, key, later => keyLess lower key later = .lt

variable {hero : String} {claims : List Claim}

theorem levelLess_of_order {later : String} {one other : Claim}
    (order : claimLess lower hero one other ≠ .gt) (first : level ++ [key] <+: one.path)
    (second : level ++ [later] <+: other.path) (different : key ≠ later) :
    LevelLess lower hero level key later := by
  obtain ⟨rest,isOne⟩ := first
  obtain ⟨rest',isOther⟩ := second
  have next : pathLess lower one.path other.path ≠ .gt → keyLess lower key later = .lt :=
    fun paths => (pathLess_next paths ⟨rest,isOne⟩ ⟨rest',isOther⟩).resolve_left different
  rw [← isOne,← isOther] at next
  rw [claimLess,← isOne,← isOther] at order
  cases level with
  | nil =>
    dsimp only [nil_append,singleton_append] at order
    by_cases last : later = hero
    · rw [if_neg fun leads => leads.2 last,
        if_pos ⟨fun same => different (same.trans last.symm),last⟩] at order
      exact absurd rfl order
    · refine ⟨last,?_⟩
      by_cases leads : key = hero
      · exact .inl leads
      · rw [if_neg fun both => leads both.1,if_neg fun both => last both.2] at order
        exact .inr (next order)
  | cons =>
    dsimp only [cons_append] at order
    rw [if_neg fun leads => leads.2 leads.1,if_neg fun trails => trails.1 trails.2] at order
    exact next order

theorem keysAt_pairwise (distinct : DistinctPaths p.claims)
    (outside : OutsideValues p f level) :
    (keysAt level (shape lower p f)).Pairwise (LevelLess lower (rolesKey p.claims) level) := by
  rw [keysAt_shape distinct outside]
  have inOrder : ((ordered lower p.claims).filterMap (nextKey p f level)).Pairwise
      fun key later => key ≠ later → LevelLess lower (rolesKey p.claims) level key later := by
    refine pairwise_filterMap.mpr ((ordered_pairwise lower p.claims).imp ?_)
    intro _ _ order _ isKey _ isLater
    exact levelLess_of_order order (nextKey_eq_some.mp isKey).2 (nextKey_eq_some.mp isLater).2
  exact ((inOrder.sublist (foldl_addWord_sublist [])).and (nodup_foldl_addWord nodup_nil)).imp
    fun both => both.1 both.2

theorem head_of_first {keys : List String}
    (order : keys.Pairwise (LevelLess lower hero [])) (mem : hero ∈ keys) :
    keys.head? = some hero := by
  cases keys with
  | nil => cases mem
  | cons =>
    rcases mem_cons.mp mem with rfl | later
    · rfl
    · exact absurd rfl ((pairwise_cons.mp order).1 hero later).1

theorem rolesKey_of_roles (proper : ∀ c ∈ claims, c.path ≠ [])
    (sends : ∃ c ∈ claims, c.kind = .roles) :
    ∃ c ∈ claims, c.kind = .roles ∧ [rolesKey claims] <+: c.path := by
  have heads : ∀ c ∈ claims, [c.path.headD ""] <+: c.path := by
    intro c mem
    cases path : c.path with
    | nil => exact absurd path (proper c mem)
    | cons _ rest => exact ⟨rest,rfl⟩
  have isHero : ∀ c ∈ claims.filter fun c => c.kind = .roles && c.path ≠ [],
      c ∈ claims ∧ c.kind = .roles := by
    intro c mem
    simp only [mem_filter,Bool.and_eq_true,decide_eq_true_eq] at mem
    exact ⟨mem.1,mem.2.1⟩
  unfold rolesKey
  dsimp only
  split
  · next c found =>
    obtain ⟨mem,kind⟩ := isHero c (mem_of_find?_eq_some found)
    exact ⟨c,mem,kind,heads c mem⟩
  · obtain ⟨c,mem,kind⟩ := sends
    cases filtered : claims.filter fun c => c.kind = .roles && c.path ≠ [] with
    | nil =>
      have none := filter_eq_nil_iff.mp filtered c mem
      simp [kind,proper c mem] at none
    | cons first =>
      obtain ⟨mem,kind⟩ := isHero first (filtered ▸ mem_cons_self)
      exact ⟨first,mem,kind,heads first mem⟩

def Value.inside : Value → List String → Option Value
  | .object child, path => tokenAt path child
  | _, _ => none

theorem tokenAt_append (proper : path ≠ []) (seg : String) (rest : List String) (o : Object) :
    tokenAt (path ++ seg :: rest) o = (tokenAt path o).bind (·.inside (seg :: rest)) := by
  induction path generalizing o with
  | nil => exact absurd rfl proper
  | cons first later ih =>
    cases later with
    | nil =>
      rw [singleton_append,tokenAt,tokenAt]
      cases o.lookup first with
      | none => rfl
      | some value =>
        cases value with
        | object => rfl
        | _ => rfl
    | cons key later =>
      rw [cons_append,cons_append,tokenAt,tokenAt]
      split
      · exact ih (cons_ne_nil key later) _
      · rfl

theorem object_above {seg : String} {rest : List String} {w : Value} (proper : path ≠ [])
    (here : tokenAt (path ++ seg :: rest) o = some w) :
    ∃ child, tokenAt path o = some (.object child) := by
  rw [tokenAt_append proper] at here
  obtain ⟨v,there,inside⟩ := Option.bind_eq_some_iff.mp here
  cases v with
  | object child => exact ⟨child,there⟩
  | _ => cases inside

theorem tokenAt_from_row (distinct : DistinctPaths p.claims)
    (here : tokenAt path (shape lower p f) = some v) :
    ∃ c ∈ p.claims, ∃ w, c.value p f = some w ∧ (path = c.path ∧ v = w ∨
        (∃ seg rest, path = c.path ++ seg :: rest ∧ w.inside (seg :: rest) = some v) ∨
        (∃ child, v = .object child) ∧ ∃ seg rest, c.path = path ++ seg :: rest) := by
  have meets : ∃ c ∈ p.claims, (c.value p f).isSome = true ∧ ¬ Apart c.path path := by
    by_contra none
    push Not at none
    rw [shape,tokenAt_foldl fun c mem => none c (mem_ordered.mp mem)] at here
    match path, here with
    | [], here => cases here
    | [_], here => cases here
    | _ :: _ :: _, here => cases here
  obtain ⟨c,mem,valued,meets⟩ := meets
  obtain ⟨w,isValue⟩ := Option.isSome_iff_exists.mp valued
  have there := tokenAt_shape lower distinct mem isValue
  refine ⟨c,mem,w,isValue,?_⟩
  rw [Apart,not_and_or,not_not,not_not] at meets
  rcases meets with ⟨rest,rfl⟩ | ⟨rest,continues⟩
  · cases rest with
    | nil =>
      rw [append_nil] at here ⊢
      exact .inl ⟨rfl,Option.some.inj (here.symm.trans there)⟩
    | cons seg rest =>
      rw [tokenAt_append (distinct.1 c mem),there] at here
      exact .inr (.inl ⟨seg,rest,rfl,here⟩)
  · cases rest with
    | nil =>
      rw [append_nil] at continues
      subst continues
      exact .inl ⟨rfl,Option.some.inj (here.symm.trans there)⟩
    | cons seg rest =>
      refine .inr (.inr ⟨?_,seg,rest,continues.symm⟩)
      have proper : path ≠ [] := by
        rintro rfl
        cases here
      obtain ⟨child,isObject⟩ := object_above proper (continues ▸ there)
      exact ⟨child,Option.some.inj (here.symm.trans isObject)⟩

theorem ordered_perm (distinct : DistinctPaths p.claims)
    (perm : claims.Perm p.claims) (hero : rolesKey claims = rolesKey p.claims) :
    ordered lower claims = ordered lower p.claims := by
  have sorted := ordered_pairwise lower claims
  rw [hero] at sorted
  refine Perm.eq_of_pairwise ?_ sorted (ordered_pairwise lower p.claims)
    ((perm_insertionSort _ _).trans (perm.trans (perm_insertionSort _ _).symm))
  intro one other oneIn otherIn forth back
  by_contra different
  have inClaims : one ∈ p.claims := perm.mem_iff.mp ((perm_insertionSort _ _).mem_iff.mp oneIn)
  have apart := distinct.apart inClaims (mem_ordered.mp otherIn) different
  have swap : claimLess lower (rolesKey p.claims) other one =
      (claimLess lower (rolesKey p.claims) one other).swap := Std.OrientedCmp.eq_swap
  have level : claimLess lower (rolesKey p.claims) one other = .eq := by
    rw [swap] at back
    cases less : claimLess lower (rolesKey p.claims) one other with
    | eq => rfl
    | lt => exact absurd (less ▸ rfl) back
    | gt => exact absurd less forth
  rw [claimLess_eq] at level
  have same : one.path = other.path :=
    Std.LawfulEqCmp.eq_of_compare (Ordering.then_eq_eq.mp level).2
  exact apart.1 (same ▸ prefix_rfl)

end Rows

/-! ### The whole layout -/

structure LaidOut (lower : String → String) (p : Profile) (f : Facts) : Prop where
  placed : ∀ c ∈ p.claims, ∀ v, c.value p f = some v →
    tokenAt c.path (shape lower p f) = some v
  /-- A leaf is at a row's path, or inside the object a row has for its value. -/
  nothingElse : ∀ path v, tokenAt path (shape lower p f) = some v →
    ∃ c ∈ p.claims, ∃ w, c.value p f = some w ∧
      (path = c.path ∧ v = w ∨
        (∃ seg rest, path = c.path ++ seg :: rest ∧ w.inside (seg :: rest) = some v) ∨
        (∃ child, v = .object child) ∧ ∃ seg rest, c.path = path ++ seg :: rest)
  heroFirst : (∃ c ∈ p.claims, c.kind = .roles) →
    (keysAt [] (shape lower p f)).head? = some (rolesKey p.claims)
  topAscending : ((keysAt [] (shape lower p f)).filter (· ≠ rolesKey p.claims)).Pairwise
    fun key later => keyLess lower key later = .lt
  ascending : ∀ level ≠ [], OutsideValues p f level →
    (keysAt level (shape lower p f)).Pairwise fun key later => keyLess lower key later = .lt
  unordered : ∀ claims : List Claim, claims.Perm p.claims →
    rolesKey claims = rolesKey p.claims →
    shape lower { p with claims := claims } f = shape lower p f

theorem shape_laidOut (host : Host) (lower : String → String) (p : Profile) (f : Facts)
    (accepted : validate host p = none) : LaidOut lower p f := by
  have distinct := distinctPaths_of_accepted accepted
  have top : OutsideValues p f [] := fun c mem _ lies =>
    distinct.1 c mem (prefix_nil.mp lies)
  refine ⟨fun c mem v => tokenAt_shape lower distinct mem,fun path v =>
    tokenAt_from_row distinct,?_,?_,?_,?_⟩
  · intro sends
    refine head_of_first (keysAt_pairwise distinct top) ((mem_keysAt_shape distinct top).mpr ?_)
    obtain ⟨c,mem,kind,leads⟩ := rolesKey_of_roles distinct.1 sends
    refine ⟨c,mem,?_,leads⟩
    rw [Claim.value,kind]
    rfl
  · refine pairwise_filter.mpr ((keysAt_pairwise distinct top).imp ?_)
    intro _ _ less notHero _
    exact less.2.resolve_left (of_decide_eq_true notHero)
  · intro level nested outside
    cases level with
    | nil => exact absurd rfl nested
    | cons => exact keysAt_pairwise distinct outside
  · intro _ perm hero
    rw [shape,ordered_perm distinct perm hero]
    rfl

namespace Endings

def host : Host := { quoted := id, validJSON := fun _ => true }

def profile : Profile :=
  { claims := [⟨["syndra","ends"],.roleEnds,.unknown "",none,[],.unknown ""⟩,
      ⟨["groups"],.roles,.unknown "",none,[],.array⟩]
    roles := []
    includeNew := true
    lands := .both }

def facts : Facts :=
  { Facts.zero with
    roles := ["print","laser"]
    roleEnds := [("laser", "2026-12-01"),("print", "2026-11-30")] }

theorem laidOut_endings : validate host profile = none ∧
    (keysAt [] (shape Foundation.Text.toLower profile facts)).head? = some "groups" := by
  have accepted : validate host profile = none := by decide +kernel
  exact ⟨accepted,(shape_laidOut host _ profile facts accepted).heroFirst
    ⟨_,mem_cons_of_mem _ mem_cons_self,rfl⟩⟩

/-- The keys of the ends are in the order of the roles held. -/
theorem ends_unsorted : validate host profile = none ∧
    ¬ (keysAt ["syndra","ends"] (shape Foundation.Text.toLower profile facts)).Pairwise
      fun key later => keyLess Foundation.Text.toLower key later = .lt := by
  decide +kernel

end Endings

/-! ### The degraded answer -/

def Claim.FromRecords (c : Claim) : Prop :=
  c.kind = .bundles ∨ c.kind = .roleEnds ∨
    c.kind = .attribute ∧ c.source ∈ [.title,.team,.isServiceAccount,.compiledAt]

def Facts.withRecords (f g : Facts) : Facts :=
  { f with
    title := g.title, team := g.team, compiledAt := g.compiledAt, bundles := g.bundles
    roleEnds := g.roleEnds, isServiceAccount := g.isServiceAccount }

structure PartOf (lower : String → String) (p : Profile) (f : Facts) : Prop where
  sameValues : ∀ path v, tokenAt path (shape lower p.rolesOnly f) = some v →
    tokenAt path (shape lower p f) = some v ∨
      (∃ child, v = .object child) ∧ ∃ child, tokenAt path (shape lower p f) = some (.object child)
  sameOrder : ∀ level,
    keysAt level (shape lower p.rolesOnly f) <+ keysAt level (shape lower p f)
  lacksRecords : ∀ c ∈ p.claims, ∀ v, c.value p f = some v → ¬ c.FromRecords →
    tokenAt c.path (shape lower p.rolesOnly f) = some v
  ignoresRecords : ∀ g, shape lower p.rolesOnly (f.withRecords g) = shape lower p.rolesOnly f

section Degraded

variable {p : Profile} {f : Facts} {c : Claim} {lower : String → String}

theorem mem_rolesOnly : c ∈ p.rolesOnly.claims ↔ c ∈ p.claims ∧ c.needsFacts = false := by
  rw [Profile.rolesOnly,mem_filter,Bool.not_eq_true']

theorem rolesKey_rolesOnly : rolesKey p.rolesOnly.claims = rolesKey p.claims := by
  have heroes : (p.rolesOnly.claims.filter fun c => c.kind = .roles && c.path ≠ []) =
      p.claims.filter fun c => c.kind = .roles && c.path ≠ [] := by
    rw [Profile.rolesOnly,filter_filter]
    refine filter_congr fun c _ => ?_
    by_cases kind : c.kind = .roles
    · simp [kind,needsFacts]
    · simp [kind]
  rw [rolesKey,rolesKey,heroes]

theorem distinct_rolesOnly (distinct : DistinctPaths p.claims) :
    DistinctPaths p.rolesOnly.claims :=
  ⟨fun c mem => distinct.1 c (mem_rolesOnly.mp mem).1,distinct.2.filter _⟩

theorem inside_kept {w : Value} (kept : c.needsFacts = false)
    (isValue : c.value p f = some w) :
    w.inside path = none := by
  cases w with
  | object =>
    unfold value at isValue
    unfold needsFacts at kept
    split at isValue
    · unfold formatRoles at isValue
      split at isValue <;> cases isValue
    · simp only [attributeValue] at isValue
      split at isValue <;> simp at isValue
    · cases literal : c.literal <;> simp [literal] at isValue
    · cases isValue
    · cases isValue
    · next kind => simp [kind] at kept
    · cases isValue
  | _ => rfl

theorem value_withRecords (kept : c.needsFacts = false) {g : Facts} :
    c.value p (f.withRecords g) = c.value p f := by
  unfold value
  unfold needsFacts at kept
  split
  · rfl
  · next kind =>
    rw [kind] at kept
    cases source : c.source with
    | title | team | isServiceAccount | compiledAt | unknown => simp [source,fromToken] at kept
    | _ => rfl
  · rfl
  · rfl
  · next kind => simp [kind] at kept
  · next kind => simp [kind] at kept
  · rfl

theorem kept_of_not_fromRecords (isValue : c.value p f = some v) (other : ¬ c.FromRecords) :
    c.needsFacts = false := by
  unfold Claim.FromRecords at other
  unfold needsFacts
  split
  · next kind => simp [kind] at other
  · next kind => simp [kind] at other
  · next kind =>
    rw [value,kind] at isValue
    cases source : c.source with
    | title | team | isServiceAccount | compiledAt => simp [kind,source] at other
    | unknown =>
      rw [source] at isValue
      cases isValue
    | _ => rfl
  · rfl

instance (hero : String) (level : List String) : Std.Antisymm (LevelLess lower hero level) where
  antisymm key later forth back := by
    have swap : keyLess lower later key = (keyLess lower key later).swap :=
      Std.OrientedCmp.eq_swap
    cases level with
    | nil =>
      rw [back.2.resolve_left forth.1,forth.2.resolve_left back.1] at swap
      cases swap
    | cons seg rest =>
      rw [show keyLess lower key later = .lt from forth,
        show keyLess lower later key = .lt from back] at swap
      cases swap

variable {key : String}

theorem mem_keysAt : key ∈ keysAt level o ↔ tokenAt (level ++ [key]) o ≠ none := by
  induction level generalizing o with
  | nil => exact mem_keys_iff
  | cons seg rest ih =>
    obtain ⟨_,_,isCons⟩ := exists_cons_of_ne_nil (concat_ne_nil key rest)
    rw [cons_append,isCons,tokenAt,← isCons,keysAt]
    cases o.lookup seg with
    | none => simp
    | some v =>
      cases v with
      | object => exact ih
      | _ => simp

theorem kept_row (fewer : DistinctPaths p.rolesOnly.claims)
    (here : tokenAt path (shape lower p.rolesOnly f) = some v) :
    ∃ c ∈ p.rolesOnly.claims, ∃ w, c.value p f = some w ∧ (path = c.path ∧ v = w ∨
      (∃ child, v = .object child) ∧ ∃ seg rest, c.path = path ++ seg :: rest) := by
  obtain ⟨c,mem,w,isValue,atRow | ⟨_,_,_,inside⟩ | above⟩ := tokenAt_from_row fewer here
  · exact ⟨c,mem,w,isValue,.inl atRow⟩
  · rw [inside_kept (mem_rolesOnly.mp mem).2 isValue] at inside
    cases inside
  · exact ⟨c,mem,w,isValue,.inr above⟩

theorem row_of_key (fewer : DistinctPaths p.rolesOnly.claims)
    (mem : key ∈ keysAt level (shape lower p.rolesOnly f)) :
    ∃ c ∈ p.rolesOnly.claims, level ++ [key] <+: c.path := by
  obtain ⟨_,here⟩ := Option.ne_none_iff_exists'.mp (mem_keysAt.mp mem)
  obtain ⟨c,kept,_,_,⟨same,_⟩ | ⟨_,_,_,continues⟩⟩ := kept_row fewer here
  · exact ⟨c,kept,same ▸ prefix_rfl⟩
  · exact ⟨c,kept,continues ▸ prefix_append _ _⟩

theorem outside_of_passes (distinct : DistinctPaths p.claims) (mem : c ∈ p.claims)
    (passes : level ++ [key] <+: c.path) : OutsideValues p f level := by
  intro other otherIn _ lies
  have below : other.path <+: c.path := lies.trans ((prefix_append level [key]).trans passes)
  by_cases same : other = c
  · subst same
    have longer := (passes.trans lies).length_le
    simp at longer
  · exact (distinct.apart otherIn mem same).1 below

end Degraded

theorem rolesOnly_partOf (host : Host) (lower : String → String) (p : Profile) (f : Facts)
    (accepted : validate host p = none) : PartOf lower p f := by
  have distinct := distinctPaths_of_accepted accepted
  have fewer := distinct_rolesOnly distinct
  refine ⟨?_,?_,?_,?_⟩
  · intro _ v here
    obtain ⟨c,mem,_,isValue,⟨rfl,rfl⟩ | ⟨isObject,_,_,continues⟩⟩ := kept_row fewer here
    · exact .inl (tokenAt_shape lower distinct (mem_rolesOnly.mp mem).1 isValue)
    · have there := tokenAt_shape lower distinct (mem_rolesOnly.mp mem).1 isValue
      rw [continues] at there
      refine .inr ⟨isObject,object_above ?_ there⟩
      rintro rfl
      cases here
  · intro level
    rcases eq_nil_or_concat (keysAt level (shape lower p.rolesOnly f)) with none | ⟨_,key,isLast⟩
    · exact none ▸ nil_sublist _
    have mem : key ∈ keysAt level (shape lower p.rolesOnly f) := by simp [isLast]
    obtain ⟨c,kept,passes⟩ := row_of_key fewer mem
    have outside : OutsideValues p f level :=
      outside_of_passes distinct (mem_rolesOnly.mp kept).1 passes
    have fewerOutside : OutsideValues p.rolesOnly f level :=
      fun c mem => outside c (mem_rolesOnly.mp mem).1
    have order : (keysAt level (shape lower p.rolesOnly f)).Pairwise _ :=
      keysAt_pairwise fewer fewerOutside
    rw [rolesKey_rolesOnly] at order
    refine sublist_of_subperm_of_pairwise (subperm_of_subset ?_ ?_) order
      (keysAt_pairwise distinct outside)
    · rw [keysAt_shape fewer fewerOutside]
      exact nodup_foldl_addWord nodup_nil
    · intro other present
      obtain ⟨c,kept,there⟩ := (mem_keysAt_shape fewer fewerOutside).mp present
      exact (mem_keysAt_shape distinct outside).mpr ⟨c,(mem_rolesOnly.mp kept).1,there⟩
  · intro c mem _ isValue other
    exact tokenAt_shape lower fewer
      (mem_rolesOnly.mpr ⟨mem,kept_of_not_fromRecords isValue other⟩) isValue
  · intro _
    refine foldl_ext _ _ _ fun out c mem => ?_
    rw [placeRow,placeRow,value_withRecords (mem_rolesOnly.mp (mem_ordered.mp mem)).2]

namespace Endings

theorem partOf_endings : validate host profile = none ∧
    tokenAt ["groups"] (shape Foundation.Text.toLower profile.rolesOnly facts) =
      some (.list ["print","laser"]) := by
  have accepted : validate host profile = none := by decide +kernel
  exact ⟨accepted,(rolesOnly_partOf host _ profile facts accepted).lacksRecords _
    (mem_cons_of_mem _ mem_cons_self) _ rfl (by unfold Claim.FromRecords; decide)⟩

end Endings

end Syndra.Claims
