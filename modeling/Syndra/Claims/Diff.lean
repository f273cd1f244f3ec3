/-
An empty diff and the tokens it leaves alone.

Two profiles are compared row by row under one path, role by role in their words, and in two
settings.
-/

import Syndra.Claims.Layout
import Syndra.Foundation.Framing

namespace Syndra.Claims

open List Foundation.Text Claim Option

inductive ChangeKind where
  | add
  | remove
  | rename
  | retype
  | move
  | lands
  | includeNew
deriving DecidableEq

/-- A change of a role carries its key, one of a row its path. -/
structure ProfileChange where
  kind : ChangeKind
  role : String
  path : List String
  newPath : List String
deriving DecidableEq

def ProfileChange.ofRow (kind : ChangeKind) (path : List String) : ProfileChange :=
  ⟨kind,"",path,[]⟩

def sameContent (a b : Claim) : Bool :=
  a.kind = b.kind && a.source = b.source && a.format = b.format &&
    trimSpace (a.literal.getD "") = trimSpace (b.literal.getD "") &&
    pathKey a.roles = pathKey b.roles

namespace Profile

def rowAt (p : Profile) (path : List String) : Option Claim :=
  (p.claims.filter fun c => pathKey c.path = pathKey path).getLast?

def sendsRoles (p : Profile) : Bool :=
  p.claims.any fun c => c.kind = .roles || c.kind = .roleEnds

end Profile

/-- The changes of the new rows, and the old rows none of them took the content of. -/
def rowChanges (old : Profile) : List Claim → List Claim → List ProfileChange × List Claim
  | [], gone => ([], gone)
  | c :: rest, gone =>
    match old.rowAt c.path with
    | some prev =>
      if sameContent prev c then rowChanges old rest gone
      else (.ofRow .retype c.path :: (rowChanges old rest gone).1, (rowChanges old rest gone).2)
    | none =>
      match gone.findIdx? (sameContent · c) with
      | some i =>
        let later := rowChanges old rest (gone.eraseIdx i)
        (⟨.move,"",(gone[i]?.map Claim.path).getD [],c.path⟩ :: later.1, later.2)
      | none =>
        (.ofRow .add c.path :: (rowChanges old rest gone).1, (rowChanges old rest gone).2)

def roleChange (old new : Profile) (key : String) : Option ProfileChange :=
  match old.role key, new.role key with
  | (true, was), (true, now) => if was ≠ now then some ⟨.rename,key,[],[]⟩ else none
  | (true, _), (false, _) => some ⟨.remove,key,[],[]⟩
  | (false, _), (true, _) => some ⟨.add,key,[],[]⟩
  | (false, _), (false, _) => none

def diff (old new : Profile) : List ProfileChange :=
  let old := old.normalize
  let new := new.normalize
  let gone := old.claims.filter fun c => (new.rowAt c.path).isNone
  let rows := rowChanges old new.claims gone
  let keys := ((new.roles ++ old.roles).map RoleMap.key).foldl addWord []
  rows.1 ++ rows.2.map (fun c => .ofRow .remove c.path) ++
    (if old.sendsRoles && new.sendsRoles then keys.filterMap (roleChange old new) else []) ++
    (if old.lands ≠ new.lands then [.ofRow .lands []] else []) ++
    (if old.includeNew ≠ new.includeNew then [.ofRow .includeNew []] else [])

variable {host : Host} {old new p q : Profile} {c d : Claim} {f : Facts}

private theorem rowChanges_nil {rows gone : List Claim} (none : (rowChanges old rows gone).1 = []) :
    (∀ c ∈ rows, ∃ prev, old.rowAt c.path = some prev ∧ sameContent prev c = true) ∧
      (rowChanges old rows gone).2 = gone := by
  induction rows generalizing gone with
  | nil => exact ⟨by simp,rfl⟩
  | cons _ _ ih =>
    rw [rowChanges] at none ⊢
    split at none
    · next prev known =>
      split at none
      · next same =>
        rw [if_pos same]
        obtain ⟨later,kept⟩ := ih none
        exact ⟨forall_mem_cons.mpr ⟨⟨prev,known,same⟩,later⟩,kept⟩
      · cases none
    · split at none <;> cases none

structure Undiffered (p q : Profile) : Prop where
  known : ∀ d ∈ q.claims, ∃ c, p.rowAt d.path = some c ∧ sameContent c d = true
  kept : ∀ c ∈ p.claims, ∃ d, q.rowAt c.path = some d
  words : p.sendsRoles = true → q.sendsRoles = true → ∀ role word,
    p.role role = (true, word) ↔ q.role role = (true, word)
  lands : p.lands = q.lands
  includeNew : p.includeNew = q.includeNew

variable {key : String}

private theorem roleChange_none (none : roleChange p q key = none) {word : String} :
    p.role key = (true, word) ↔ q.role key = (true, word) := by
  unfold roleChange at none
  split at none
  · next was now first second =>
    split at none
    · cases none
    · next same => rw [first,second,not_not.mp same]
  · cases none
  · cases none
  · next first second => simp [first,second]

private theorem role_unmapped (unmapped : ∀ m ∈ p.roles, m.key ≠ key) :
    p.role key = (p.includeNew, key) := by
  rw [Profile.role,find?_eq_none.mpr fun m inMap => by simpa using unmapped m inMap]

private theorem undiffered (empty : diff old new = []) :
    Undiffered old.normalize new.normalize := by
  unfold diff at empty
  simp only [append_eq_nil_iff,map_eq_nil_iff] at empty
  obtain ⟨⟨⟨⟨rows,gone⟩,roles⟩,lands⟩,news⟩ := empty
  obtain ⟨known,same⟩ := rowChanges_nil rows
  have sameNew : old.normalize.includeNew = new.normalize.includeNew := by
    by_contra different
    rw [if_pos different] at news
    cases news
  refine ⟨known,?_,?_,?_,sameNew⟩
  · intro c mem
    rw [same] at gone
    have present := filter_eq_nil_iff.mp gone c mem
    simpa [isSome_iff_exists,← not_isSome_iff_eq_none] using present
  · intro first second role word
    rw [if_pos (by rw [first,second]; rfl)] at roles
    by_cases mapped : role ∈ (new.normalize.roles ++ old.normalize.roles).map RoleMap.key
    · exact roleChange_none
        (filterMap_eq_nil_iff.mp roles role (mem_foldl_addWord.mpr (.inr mapped)))
    · rw [role_unmapped fun m inMap isRole =>
          mapped (mem_map.mpr ⟨m,mem_append_right _ inMap,isRole⟩),
        role_unmapped fun m inMap isRole =>
          mapped (mem_map.mpr ⟨m,mem_append_left _ inMap,isRole⟩),sameNew]
  · by_contra different
    rw [if_pos different] at lands
    cases lands

private theorem nul_notMem_key (valid : validClaimKey key = true) : '\x00' ∉ key.toList := by
  intro mem
  simp only [validClaimKey,Bool.and_eq_true] at valid
  exact absurd (all_eq_true.mp valid.1.1.2 _ mem) (by decide)

private theorem toList_pathKey {seg other : String} {rest : List String} :
    (pathKey (seg :: other :: rest)).toList =
      seg.toList ++ '\x00' :: (pathKey (other :: rest)).toList := by
  simp [pathKey]

private theorem pathKey_inj {one other : List String} (proper : one ≠ []) (valid : other ≠ [])
    (keys : ∀ seg ∈ one, validClaimKey seg = true) (named : ∀ seg ∈ other, validClaimKey seg = true)
    (same : pathKey one = pathKey other) : one = other := by
  induction one generalizing other with
  | nil => exact absurd rfl proper
  | cons seg rest ih =>
    cases other with
    | nil => exact absurd rfl valid
    | cons seg' rest' =>
      have unmarked := nul_notMem_key (keys seg mem_cons_self)
      have unmarked' := nul_notMem_key (named seg' mem_cons_self)
      have chars := congrArg String.toList same
      have alone (key : String) : pathKey [key] = key := by simp [pathKey]
      cases rest with
      | nil =>
        cases rest' with
        | nil => rw [← alone seg,← alone seg',same]
        | cons =>
          rw [toList_pathKey] at chars
          exact absurd (chars ▸ mem_append_right _ mem_cons_self) unmarked
      | cons =>
        cases rest' with
        | nil =>
          rw [toList_pathKey] at chars
          exact absurd (chars ▸ mem_append_right _ mem_cons_self) unmarked'
        | cons =>
          rw [toList_pathKey,toList_pathKey] at chars
          obtain ⟨first,later⟩ := Foundation.Framing.append_mark_inj unmarked unmarked' chars
          rw [String.toList_inj.mp first,ih (cons_ne_nil _ _) (cons_ne_nil _ _)
            (fun seg mem => keys seg (mem_cons_of_mem _ mem))
            (fun seg mem => named seg (mem_cons_of_mem _ mem)) (String.toList_inj.mp later)]

/-- Lists of words are compared as sets, literals up to the space around them. -/
def SameValue : Option Value → Option Value → Prop
  | some (.object _), some (.object _) => True
  | some (.list one), some (.list other) => ∀ word, word ∈ one ↔ word ∈ other
  | some (.raw one), some (.raw other) => trimSpace one = trimSpace other
  | one, other => one = other

structure SameTokens (lower : String → String) (p q : Profile) : Prop where
  lands : ∀ function, p.landsIn function = q.landsIn function
  leaves : ∀ f path, SameValue (tokenAt path (shape lower p f)) (tokenAt path (shape lower q f))

def AskAlike (p q : Profile) : Prop :=
  ∀ c ∈ p.claims, ∀ d ∈ q.claims, c.path = d.path → c.kind = .ifRole →
    ∀ role, role ∈ c.roles ↔ role ∈ d.roles

/-- The included roles, in the order of the map. -/
def Profile.listed (p : Profile) : List String := (p.roles.filter (·.included)).map RoleMap.key

/-- Where roles are sent as text, both maps list the same included roles in the same order. -/
def TextAlike (p q : Profile) : Prop :=
  ∀ c ∈ p.claims, c.kind = .roles → c.format = .csv ∨ c.format = .spaceDelimited →
    p.listed = q.listed

private theorem sameValue_refl : ∀ v, SameValue v v
  | none => rfl
  | some (.object _) => trivial
  | some (.list _) => fun _ => .rfl
  | some (.raw _) | some (.text _) | some (.bool _) | some (.count _) => rfl

theorem SameValue.symm {v w : Option Value} (same : SameValue v w) : SameValue w v := by
  unfold SameValue at same
  split at same
  · trivial
  · exact fun word => (same word).symm
  · exact Eq.symm same
  · subst same; exact sameValue_refl _

structure Answers (p q : Profile) (c d : Claim) : Prop where
  member : d ∈ q.claims
  path : d.path = c.path
  values : ∀ f, SameValue (c.value p f) (d.value q f)
  objects : ∀ f child, c.value p f = some (.object child) → d.value q f = some (.object child)

variable {path : List String}

private theorem sameValue_of_answers {lower : String → String} {v : Value}
    (pDistinct : DistinctPaths p.claims) (qDistinct : DistinctPaths q.claims)
    (answered : ∀ c ∈ p.claims, ∃ d, Answers p q c d)
    (here : tokenAt path (shape lower p f) = some v) :
    SameValue (some v) (tokenAt path (shape lower q f)) := by
  obtain ⟨c,mem,w,isValue,place⟩ := tokenAt_from_row pDistinct here
  obtain ⟨d,answers⟩ := answered c mem
  have same := answers.values f
  rw [isValue] at same
  cases other : d.value q f with
  | none =>
    rw [other] at same
    cases w with
    | _ => cases same
  | some =>
    have there := tokenAt_shape lower qDistinct answers.member other
    rw [answers.path] at there
    rcases place with ⟨rfl,rfl⟩ | ⟨_,_,rfl,inside⟩ | ⟨⟨child,rfl⟩,_,_,longer⟩
    · rw [there,← other]
      exact same
    · cases w with
      | object child =>
        rw [answers.objects f child isValue] at other
        rw [tokenAt_append (pDistinct.1 c mem),there,← some.inj other]
        exact inside ▸ sameValue_refl _
      | _ => cases inside
    · have proper : path ≠ [] := by
        rintro rfl
        cases here
      obtain ⟨_,isObject⟩ := object_above proper (longer ▸ there)
      rw [isObject]
      trivial

def WordsAgree (p q : Profile) : Prop :=
  ∀ role word, p.role role = (true, word) ↔ q.role role = (true, word)

private theorem mem_words_iff (pKeys : (p.roles.map RoleMap.key).Nodup)
    (qKeys : (q.roles.map RoleMap.key).Nodup) (agree : WordsAgree p q) {held : List String}
    (word : String) : word ∈ p.words held ↔ word ∈ q.words held := by
  rw [mem_words,mem_words]
  simp only [← role_eq_true pKeys,← role_eq_true qKeys,agree _ _]

private theorem role_mapped (distinct : (p.roles.map RoleMap.key).Nodup) {m : RoleMap}
    (inMap : m ∈ p.roles) : p.role m.key = (m.included, m.word) := by
  unfold Profile.role
  cases found : p.roles.find? (·.key = m.key) with
  | none => simpa using find?_eq_none.mp found m inMap
  | some other =>
    have named : other.key = m.key := by simpa using find?_some found
    rw [inj_on_of_nodup_map distinct (mem_of_find?_eq_some found) inMap named]

/-- The listed words in the order of the map, and after them the new roles. -/
private theorem words_eq_listed (distinct : (p.roles.map RoleMap.key).Nodup) (held : List String) :
    p.words held = ((p.listed.filter (· ∈ held)).map (fun role => (p.role role).2) ++
      held.filter fun role => p.role role = (true, role) ∧ role ∉ p.listed).foldl addWord [] := by
  have mapped (maps : List RoleMap) (inside : ∀ m ∈ maps, m ∈ p.roles) :
      (maps.filterMap fun m => if m.included && m.key ∈ held then some m.word else none) =
        (((maps.filter (·.included)).map RoleMap.key).filter (· ∈ held)).map
          fun role => (p.role role).2 := by
    induction maps with
    | nil => rfl
    | cons m => grind [role_mapped]
  have later : (if p.includeNew then held.filter fun r => p.roles.all (·.key ≠ r) else []) =
      held.filter fun role => p.role role = (true, role) ∧ role ∉ p.listed := by
    have unlisted (role : String) : (p.role role = (true, role) ∧ role ∉ p.listed) ↔
        p.includeNew = true ∧ ∀ m ∈ p.roles, m.key ≠ role := by
      constructor
      · rintro ⟨sent,out⟩
        have unmapped : ∀ m ∈ p.roles, m.key ≠ role := by
          rintro m inMap rfl
          have shown := (role_mapped distinct inMap).symm.trans sent
          exact out (mem_map.mpr ⟨m,mem_filter.mpr ⟨inMap,congrArg Prod.fst shown⟩,rfl⟩)
        rw [role_unmapped unmapped] at sent
        exact ⟨congrArg Prod.fst sent,unmapped⟩
      · rintro ⟨includes,unmapped⟩
        rw [role_unmapped unmapped,includes]
        refine ⟨rfl,fun mem => ?_⟩
        obtain ⟨m,shown,named⟩ := mem_map.mp mem
        exact unmapped m (mem_of_mem_filter shown) named
    simp only [unlisted]
    cases p.includeNew with
    | true =>
      refine filter_congr fun role _ => Bool.eq_iff_iff.mpr ?_
      simp
    | false => simp
  unfold Profile.words
  rw [mapped p.roles fun _ => id,later]
  rfl

private theorem words_eq (pKeys : (p.roles.map RoleMap.key).Nodup)
    (qKeys : (q.roles.map RoleMap.key).Nodup) (agree : WordsAgree p q)
    (listed : p.listed = q.listed) (held : List String) : p.words held = q.words held := by
  rw [words_eq_listed pKeys,words_eq_listed qKeys,listed]
  simp only [agree _ _]
  refine congrArg (fun words => foldl addWord [] (words ++ _)) (map_congr_left fun role mem => ?_)
  rw [← listed] at mem
  obtain ⟨m,shown,rfl⟩ := mem_map.mp (mem_of_mem_filter mem)
  obtain ⟨inMap,included⟩ := mem_filter.mp shown
  have sent := role_mapped pKeys inMap
  rw [included] at sent
  rw [sent,(agree m.key m.word).mp sent]

private theorem ends_eq (agree : WordsAgree p q) : p.ends f = q.ends f := by
  refine foldl_ext _ _ _ fun ends role _ => ?_
  cases f.roleEnds.lookup role with
  | none => rfl
  | some =>
    rcases sent : p.role role with ⟨included,word⟩
    rcases other : q.role role with ⟨included',word'⟩
    cases included with
    | true =>
      rw [(agree role word).mp sent] at other
      cases other
      rfl
    | false =>
      cases included' with
      | false => rfl
      | true => cases sent.symm.trans ((agree role word').mpr other)

structure Alike (p q : Profile) (c d : Claim) : Prop where
  kind : d.kind = c.kind
  source : d.source = c.source
  format : d.format = c.format
  literal : c.kind = .static → ∃ one other, c.literal = some one ∧ d.literal = some other ∧
    trimSpace one = trimSpace other
  words : c.kind = .roles ∨ c.kind = .roleEnds →
    WordsAgree p q ∧ ∀ held word, word ∈ p.words held ↔ word ∈ q.words held
  asks : c.kind = .ifRole → ∀ role, role ∈ c.roles ↔ role ∈ d.roles
  texts : c.kind = .roles → c.format = .csv ∨ c.format = .spaceDelimited → ∀ held,
    p.words held = q.words held

namespace Alike

theorem symm (alike : Alike p q c d) : Alike q p d c where
  kind := alike.kind.symm
  source := alike.source.symm
  format := alike.format.symm
  literal fixed := by
    obtain ⟨one,other,first,second,same⟩ := alike.literal (alike.kind ▸ fixed)
    exact ⟨other,one,second,first,same.symm⟩
  words sends := by
    obtain ⟨agree,same⟩ := alike.words (alike.kind ▸ sends)
    exact ⟨fun role word => (agree role word).symm,fun held word => (same held word).symm⟩
  asks isAsked role := (alike.asks (alike.kind ▸ isAsked) role).symm
  texts sends text held :=
    (alike.texts (alike.kind ▸ sends) (alike.format ▸ text) held).symm

theorem values (alike : Alike p q c d) (f : Facts) : SameValue (c.value p f) (d.value q f) := by
  unfold value
  rw [alike.kind]
  cases kind : c.kind with
  | roles =>
    rw [alike.format]
    obtain ⟨_,same⟩ := alike.words (.inl kind)
    cases format : c.format with
    | csv | spaceDelimited =>
      rw [alike.texts kind (by simp [format])]
      exact sameValue_refl _
    | array | unknown => exact same f.roles
  | «attribute» => exact alike.source ▸ sameValue_refl _
  | static =>
    obtain ⟨_,_,first,second,same⟩ := alike.literal kind
    rw [first,second]
    exact same
  | ifRole =>
    simp only [alike.asks kind]
    exact sameValue_refl _
  | bundles | unknown => exact sameValue_refl _
  | roleEnds =>
    rw [ends_eq (alike.words (.inr kind)).1]
    exact sameValue_refl _

private theorem objects (alike : Alike p q c d) (f : Facts) (child : Object)
    (isValue : c.value p f = some (.object child)) : d.value q f = some (.object child) := by
  unfold value at isValue ⊢
  rw [alike.kind]
  cases kind : c.kind with
  | roles =>
    rw [kind] at isValue
    cases format : c.format with
    | _ =>
      rw [format] at isValue
      cases isValue
  | «attribute» =>
    rw [kind] at isValue
    unfold attributeValue at isValue
    cases source : c.source with
    | _ => simp [source] at isValue
  | static =>
    rw [kind] at isValue
    obtain ⟨_,_,isRaw⟩ := map_eq_some_iff.mp isValue
    cases isRaw
  | roleEnds =>
    rw [kind,ends_eq (alike.words (.inr kind)).1] at isValue
    exact isValue
  | _ =>
    rw [kind] at isValue
    cases isValue

theorem answers (alike : Alike p q c d) (mem : d ∈ q.claims) (path : d.path = c.path) :
    Answers p q c d :=
  ⟨mem,path,alike.values,alike.objects⟩

end Alike

private theorem rowAt_eq_some (here : p.rowAt path = some c) :
    c ∈ p.claims ∧ pathKey c.path = pathKey path := by
  obtain ⟨mem,same⟩ := mem_filter.mp (mem_of_getLast? here)
  exact ⟨mem,of_decide_eq_true same⟩

private theorem path_of_key (pAccepted : validate host p = none)
    (qAccepted : validate host q = none)
    (cIn : c ∈ p.claims) (dIn : d ∈ q.claims) (same : pathKey c.path = pathKey d.path) :
    c.path = d.path := by
  obtain ⟨proper,keys,_⟩ := path_of_sound (claimError_eq_none pAccepted cIn)
  obtain ⟨valid,named,_⟩ := path_of_sound (claimError_eq_none qAccepted dIn)
  exact pathKey_inj proper valid keys named same

private theorem row_of_path (distinct : DistinctPaths p.claims) (cIn : c ∈ p.claims)
    (dIn : d ∈ p.claims)
    (same : c.path = d.path) : c = d := by
  by_contra different
  exact (distinct.apart cIn dIn different).1 (same ▸ prefix_rfl)

section Accepted

variable (pAccepted : validate host p = none) (qAccepted : validate host q = none)
  (same : Undiffered p q)

include pAccepted qAccepted same

private theorem old_of_new (dIn : d ∈ q.claims) :
    ∃ c ∈ p.claims, c.path = d.path ∧ sameContent c d = true := by
  obtain ⟨c,known,content⟩ := same.known d dIn
  obtain ⟨cIn,keys⟩ := rowAt_eq_some known
  exact ⟨c,cIn,path_of_key pAccepted qAccepted cIn dIn keys,content⟩

private theorem sameContent_of_path (cIn : c ∈ p.claims) (dIn : d ∈ q.claims)
    (path : c.path = d.path) :
    sameContent c d = true := by
  obtain ⟨_,prevIn,samePath,content⟩ := old_of_new pAccepted qAccepted same dIn
  rwa [row_of_path (distinctPaths_of_accepted pAccepted) prevIn cIn (samePath.trans path.symm)]
    at content

private theorem new_of_old (cIn : c ∈ p.claims) : ∃ d ∈ q.claims, d.path = c.path := by
  obtain ⟨d,known⟩ := same.kept c cIn
  obtain ⟨dIn,keys⟩ := rowAt_eq_some known
  exact ⟨d,dIn,path_of_key qAccepted pAccepted dIn cIn keys⟩

private theorem alike_of_path (asks : AskAlike p q) (texts : TextAlike p q) (cIn : c ∈ p.claims)
    (dIn : d ∈ q.claims) (path : c.path = d.path) : Alike p q c d := by
  have content := sameContent_of_path pAccepted qAccepted same cIn dIn path
  simp only [sameContent,Bool.and_eq_true,decide_eq_true_eq] at content
  obtain ⟨⟨⟨⟨kind,source⟩,format⟩,literal⟩,_⟩ := content
  have sends (row : Claim) (sent : row.kind = .roles ∨ row.kind = .roleEnds) (r : Profile)
      (mem : row ∈ r.claims) : r.sendsRoles = true :=
    any_eq_true.mpr ⟨row,mem,by simpa using sent⟩
  have filled {row : Claim} (fixed : row.kind = .static)
      (sound : validateKind host row = none) : ∃ text, row.literal = some text := by
    cases isLiteral : row.literal with
    | some text => exact ⟨text,rfl⟩
    | none =>
      unfold validateKind at sound
      rw [fixed,isLiteral] at sound
      exact absurd sound (by rw [if_pos (.inl (by decide))]; exact some_ne_none _)
  have agree (sent : c.kind = .roles ∨ c.kind = .roleEnds) : WordsAgree p q :=
    same.words (sends c sent p cIn) (sends d (kind ▸ sent) q dIn)
  have pKeys := (keys_of_accepted (accepted_iff.mp pAccepted).2.1).1
  have qKeys := (keys_of_accepted (accepted_iff.mp qAccepted).2.1).1
  refine ⟨kind.symm,source.symm,format.symm,?_,?_,asks c cIn d dIn path,fun isRoles text =>
    words_eq pKeys qKeys (agree (.inl isRoles)) (texts c cIn isRoles text)⟩
  · intro fixed
    obtain ⟨one,first⟩ := filled fixed (path_of_sound (claimError_eq_none pAccepted cIn)).2.2
    obtain ⟨other,second⟩ :=
      filled (kind ▸ fixed) (path_of_sound (claimError_eq_none qAccepted dIn)).2.2
    rw [first,second] at literal
    exact ⟨one,other,first,second,literal⟩
  · intro sent
    exact ⟨agree sent,fun _ => mem_words_iff pKeys qKeys (agree sent)⟩

private theorem sameTokens_of_alike (lower : String → String) (asks : AskAlike p q)
    (texts : TextAlike p q) : SameTokens lower p q := by
  have pDistinct := distinctPaths_of_accepted pAccepted
  have qDistinct := distinctPaths_of_accepted qAccepted
  have forth : ∀ c ∈ p.claims, ∃ d, Answers p q c d := by
    intro c cIn
    obtain ⟨d,dIn,path⟩ := new_of_old pAccepted qAccepted same cIn
    exact ⟨d,(alike_of_path pAccepted qAccepted same asks texts cIn dIn path.symm).answers dIn path⟩
  have back : ∀ d ∈ q.claims, ∃ c, Answers q p d c := by
    intro _ dIn
    obtain ⟨c,cIn,path,_⟩ := old_of_new pAccepted qAccepted same dIn
    exact ⟨c,
      (alike_of_path pAccepted qAccepted same asks texts cIn dIn path).symm.answers cIn path⟩
  refine ⟨?_,?_⟩
  · intro function
    cases function with
    | _ => simp only [Profile.landsIn,same.lands]
  · intro f path
    cases here : tokenAt path (shape lower p f) with
    | some => exact sameValue_of_answers pDistinct qDistinct forth here
    | none =>
      cases there : tokenAt path (shape lower q f) with
      | none => exact sameValue_refl _
      | some =>
        have found := sameValue_of_answers qDistinct pDistinct back there
        exact here ▸ found.symm

private theorem askAlike_of_sameTokens {lower : String → String} (tokens : SameTokens lower p q) :
    AskAlike p q := by
  intro c cIn d dIn path isAsked role
  have content := sameContent_of_path pAccepted qAccepted same cIn dIn path
  simp only [sameContent,Bool.and_eq_true,decide_eq_true_eq] at content
  have asked : d.kind = .ifRole := content.1.1.1.1 ▸ isAsked
  let f : Facts := { Facts.zero with roles := [role] }
  have here : c.value p f = some (.bool ([role].any (· ∈ c.roles))) := by rw [value,isAsked]
  have there : d.value q f = some (.bool ([role].any (· ∈ d.roles))) := by rw [value,asked]
  have leaf := tokens.leaves f c.path
  rw [tokenAt_shape lower (distinctPaths_of_accepted pAccepted) cIn here,path,
    tokenAt_shape lower (distinctPaths_of_accepted qAccepted) dIn there] at leaf
  simpa [SameValue] using leaf

end Accepted

namespace Reordered

def row (format : Format) : Claim := ⟨["groups"],.roles,.unknown "",none,[],format⟩

def profile (format : Format) (roles : List RoleMap) : Profile :=
  { claims := [row format], roles := roles, includeNew := false, lands := .both }

def laser : RoleMap := ⟨"laser","",true⟩

def print : RoleMap := ⟨"print","",true⟩

end Reordered

end Syndra.Claims
