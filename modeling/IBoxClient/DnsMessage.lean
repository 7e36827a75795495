import IBoxClient.DhcpOptions
import IBoxClient.DnsName
import IBoxClient.Lib.Levels
import Mathlib.Algebra.Order.BigOperators.Group.List

/- The messages of the DNS client (`dns.c`).

   `parseDnsMsg` reads a reply: its questions, which it skips, and its answers, of which it takes
   the address of the last one that has one. It does not look at the length of the data of an
   answer, but at what the data should be. Where that is as long (`AnswerAt`), the reader stays in
   step with the message (`dnsAnswer_eq`) and finds the addresses of all answers
   (`parseDnsMsg_reply`).

   The names are copied to a local buffer of 24 bytes, and one that takes all of them has its NUL
   stored behind the buffer (`parseName_overflows_iff`). What is read keeps whether that happens
   (`Skipped.stray`); what the call does after it depends on the stack.

   A query names a domain in the form in which `parse_name` reads it again (`fitsAt_query`). A
   domain of 22 characters is the longest whose name leaves room for the NUL. -/
namespace IBoxClient

open Memory

/-- `MAXCNAME`. -/
abbrev maxCname : Nat := 16 + 16 / 2

abbrev typeA : Nat := 1
abbrev typeNs : Nat := 2
abbrev typeCname : Nat := 5
abbrev typeSoa : Nat := 6
abbrev typeMb : Nat := 7
abbrev typeMg : Nat := 8
abbrev typeMr : Nat := 9
abbrev typePtr : Nat := 12
abbrev typeHinfo : Nat := 13
abbrev typeMx : Nat := 15

/-! ## Reading -/

def get16 (mem : Nat → UInt8) (p : Nat) : Nat := (mem p).toNat * 256 + (mem (p + 1)).toNat

/-- Where to go on after something has been skipped, if its name is not too long, and whether a
byte has been stored behind `name`. -/
structure Skipped where
  next : Option Nat
  stray : Bool

namespace Skipped

def upTo (p : Nat) : Skipped := ⟨some p, false⟩

/-- Something else is skipped behind it. -/
def bind (x : Skipped) (f : Nat → Skipped) : Skipped :=
  match x.next with
  | none => x
  | some p => ⟨(f p).next, x.stray || (f p).stray⟩

theorem upTo_bind (p : Nat) (f : Nat → Skipped) : (upTo p).bind f = f p := rfl

end Skipped

/-- A name is skipped. -/
def skipName (mem : Nat → UInt8) (p : Nat) : Skipped :=
  let name := parseName mem p maxCname
  ⟨name.clen.map (p + ·), decide (maxCname < name.stored.length)⟩

/-- A text behind its length is skipped. -/
def skipText (mem : Nat → UInt8) (p : Nat) : Nat := p + 1 + (mem p).toNat

/-- `dns_question`. -/
def dnsQuestion (mem : Nat → UInt8) (cp : Nat) : Skipped :=
  (skipName mem cp).bind fun cp => .upTo (cp + 2 + 2)

/-- The types whose data is a name. -/
def isNameType (type : Nat) : Prop :=
  type = typeCname ∨ type = typeMb ∨ type = typeMg ∨ type = typeMr ∨ type = typeNs ∨ type = typePtr

instance (type : Nat) : Decidable (isNameType type) := inferInstanceAs (Decidable (_ ∨ _))

/-- The data of an answer, from where it begins; for all other types it is left where it is. -/
def dnsData (mem : Nat → UInt8) (type cp : Nat) : Skipped :=
  if type = typeA then .upTo (cp + 4)
  else if isNameType type then skipName mem cp
  else if type = typeHinfo then .upTo (skipText mem (skipText mem cp))
  else if type = typeMx then skipName mem (cp + 2)
  else if type = typeSoa then
    ((skipName mem cp).bind (skipName mem)).bind fun cp => .upTo (cp + 4 + 4 + 4 + 4 + 4)
  else .upTo cp

/-- What an answer makes of the address, from the end of its name on. -/
def dnsAddress (mem : Nat → UInt8) (name : Option Nat) (ip : Ipv4) : Ipv4 :=
  match name with
  | none => ip
  | some cp => if get16 mem cp = typeA then .read mem (cp + 2 + 2 + 4 + 2) else ip

/-- `dns_answer`, with what it makes of the address. -/
def dnsAnswer (mem : Nat → UInt8) (cp : Nat) (ip : Ipv4) : Skipped × Ipv4 :=
  let name := skipName mem cp
  (name.bind fun cp => dnsData mem (get16 mem cp) (cp + 2 + 2 + 4 + 2), dnsAddress mem name.next ip)

/-- The loop over the questions. -/
def dnsQuestions (mem : Nat → UInt8) : Nat → Nat → Skipped
  | 0, cp => .upTo cp
  | n + 1, cp => (dnsQuestion mem cp).bind (dnsQuestions mem n)

/-- The loop over the answers, with the address. -/
def dnsAnswers (mem : Nat → UInt8) : Nat → Nat → Ipv4 → Skipped × Ipv4
  | 0, cp, ip => (.upTo cp, ip)
  | n + 1, cp, ip =>
    let answer := dnsAnswer mem cp ip
    match answer.1.next with
    | none => answer
    | some cp =>
      let rest := dnsAnswers mem n cp answer.2
      (⟨rest.1.next, answer.1.stray || rest.1.stray⟩, rest.2)

/-- The fields of the header. -/
def rcode (mem : Nat → UInt8) : Nat := get16 mem 2 % 16
def qdcount (mem : Nat → UInt8) : Nat := get16 mem 4
def ancount (mem : Nat → UInt8) : Nat := get16 mem 6

/-- What a reply leads to, with whether a byte has been stored behind a `name`. -/
structure DnsParsed where
  ret : Int
  ip : Ipv4
  stray : Bool

/-- `parseDNSMSG`. -/
def parseDnsMsg (mem : Nat → UInt8) (ip : Ipv4) : DnsParsed :=
  let questions := dnsQuestions mem (qdcount mem) 12
  match questions.next with
  | none => ⟨-1, ip, questions.stray⟩
  | some cp =>
    let answers := dnsAnswers mem (ancount mem) cp ip
    ⟨if answers.1.next.isNone then -1 else if rcode mem = 0 then 1 else 0, answers.2,
      questions.stray || answers.1.stray⟩

/-! ## What a reply says -/

section Reply
variable {mem : Nat → UInt8} {p q : Nat} {ip : Ipv4}

/-- A name that is not too long, up to where it ends. -/
def FitsAt (mem : Nat → UInt8) (p q : Nat) : Prop :=
  ∃ ls k, NameAt mem p ls k ∧ nameSize ls < maxCname ∧ q = p + k

theorem skipName_eq (h : FitsAt mem p q) : skipName mem p = .upTo q := by
  obtain ⟨ls, k, hname, hsize, rfl⟩ := h
  have hlen : maxCname ≤ 63 := by decide
  have hparse := (parseName_iff hlen).mpr ⟨ls, hname, Nat.le_of_lt hsize, rfl⟩
  have hroom : (nameText 0 ls).length ≤ maxCname := by
    rw [nameText, List.length_append]
    by_cases hnil : ls = []
    · rw [if_pos ⟨rfl, hnil⟩]
      decide
    · rw [if_neg fun h => hnil h.2, ← nameSize_eq]
      exact hsize
  rw [skipName, hparse, Skipped.upTo]
  simp only [Option.map_some, decide_eq_false (Nat.not_lt.mpr hroom)]

/-- What the data of a type should be; the client skips no data of a type that it does not know. -/
def DataAt (mem : Nat → UInt8) (type p q : Nat) : Prop :=
  if type = typeA then p + 4 = q
  else if isNameType type then FitsAt mem p q
  else if type = typeHinfo then skipText mem (skipText mem p) = q
  else if type = typeMx then FitsAt mem (p + 2) q
  else if type = typeSoa then ∃ m m', FitsAt mem p m ∧ FitsAt mem m m' ∧ m' + 20 = q
  else p = q

/-- An answer from one offset to another: its name, and as much data as it says and should have. -/
structure AnswerAt (mem : Nat → UInt8) (p q : Nat) (addr : Option Ipv4) : Prop where
  stands : ∃ d, FitsAt mem p d ∧ d + 10 + get16 mem (d + 8) = q ∧
    DataAt mem (get16 mem d) (d + 10) q ∧
    addr = if get16 mem d = typeA then some (.read mem (d + 10)) else none

theorem dnsData_eq {type : Nat} (h : DataAt mem type p q) : dnsData mem type p = .upTo q := by
  unfold DataAt at h
  unfold dnsData
  split_ifs at h ⊢ with ha hname hinfo hmx hsoa
  · rw [h]
  · exact skipName_eq h
  · rw [h]
  · exact skipName_eq h
  · obtain ⟨m, m', hm, hm', rfl⟩ := h
    rw [skipName_eq hm, Skipped.upTo_bind, skipName_eq hm', Skipped.upTo_bind]
  · rw [h]

/-- **The reader stays in step**, and takes the address if there is one. -/
theorem dnsAnswer_eq {addr : Option Ipv4} (h : AnswerAt mem p q addr) :
    dnsAnswer mem p ip = (.upTo q, addr.getD ip) := by
  obtain ⟨d, hname, -, hdata, rfl⟩ := h.stands
  have hskip : (Skipped.upTo d).bind (fun cp => dnsData mem (get16 mem cp) (cp + 2 + 2 + 4 + 2)) =
      .upTo q := (Skipped.upTo_bind ..).trans (dnsData_eq hdata)
  rw [dnsAnswer, skipName_eq hname]
  simp only [hskip]
  show (_, if get16 mem d = typeA then _ else ip) = _
  split <;> rfl

/-- Some questions, one behind another. -/
inductive QuestionsAt (mem : Nat → UInt8) : Nat → Nat → Nat → Prop where
  | nil (p : Nat) : QuestionsAt mem 0 p p
  | cons {n p d q : Nat} (h : FitsAt mem p d) (hrest : QuestionsAt mem n (d + 4) q) :
    QuestionsAt mem (n + 1) p q

/-- Some answers, with their addresses. -/
inductive AnswersAt (mem : Nat → UInt8) : List (Option Ipv4) → Nat → Nat → Prop where
  | nil (p : Nat) : AnswersAt mem [] p p
  | cons {addr : Option Ipv4} {addrs : List (Option Ipv4)} {p d q : Nat} (h : AnswerAt mem p d addr)
    (hrest : AnswersAt mem addrs d q) : AnswersAt mem (addr :: addrs) p q

theorem dnsQuestions_eq {n : Nat} (h : QuestionsAt mem n p q) : dnsQuestions mem n p = .upTo q := by
  induction h with
  | nil p => rfl
  | cons hname _ ih =>
    rw [dnsQuestions, dnsQuestion, skipName_eq hname, Skipped.upTo_bind, Skipped.upTo_bind]
    exact ih

/-- The last of some addresses, or the one that was known before. -/
def lastAddress (ip : Ipv4) (addrs : List (Option Ipv4)) : Ipv4 :=
  addrs.foldl (fun ip addr => addr.getD ip) ip

theorem dnsAnswers_eq {addrs : List (Option Ipv4)} (h : AnswersAt mem addrs p q) :
    dnsAnswers mem addrs.length p ip = (.upTo q, lastAddress ip addrs) := by
  induction h generalizing ip with
  | nil p => rfl
  | @cons addr addrs p d q hanswer _ ih =>
    rw [List.length_cons, dnsAnswers, dnsAnswer_eq hanswer]
    simp only [Skipped.upTo] at ih ⊢
    rw [ih]
    rfl

/-- **A reply.** Where its questions and answers are as they should be, the client takes the last
address in it, is content exactly if the reply reports no error, and stores nothing behind a
buffer. -/
theorem parseDnsMsg_reply {addrs : List (Option Ipv4)} (hq : QuestionsAt mem (qdcount mem) 12 p)
    (ha : AnswersAt mem addrs p q) (hcount : ancount mem = addrs.length) :
    parseDnsMsg mem ip = ⟨if rcode mem = 0 then 1 else 0, lastAddress ip addrs, false⟩ := by
  rw [parseDnsMsg, dnsQuestions_eq hq, hcount]
  simp only [Skipped.upTo, dnsAnswers_eq ha]
  rfl

end Reply

/-! ## The query -/

theorem tail_dropWhile_lt {name : List UInt8} (h : name.dropWhile (· ≠ dot) ≠ []) :
    (name.dropWhile (· ≠ dot)).tail.length < name.length := by
  have hle := (List.dropWhile_suffix (l := name) (· ≠ dot)).length_le
  have hpos := List.length_pos_of_ne_nil h
  rw [List.length_tail]
  omega

/-- The loop of `dns_makequery`: each part of the name that ends with a dot, and the last one,
stands behind its length; an empty one is the end. -/
def queryName (name : List UInt8) : List UInt8 :=
  let label := name.takeWhile (· ≠ dot)
  let rest := name.dropWhile (· ≠ dot)
  if label = [] then [0]
  else if hrest : rest = [] then .ofNat label.length :: label ++ [0]
  else .ofNat label.length :: label ++ queryName rest.tail
termination_by name.length
decreasing_by exact tail_dropWhile_lt hrest

/-- The bytes of a number of 16 bits. -/
def put16 (n : Nat) : List UInt8 := [.ofNat (n / 256), .ofNat n]

/-- `dns_makequery`. -/
def dnsMakequery (msgId : Nat) (name : List UInt8) : List UInt8 :=
  put16 msgId ++ put16 0x0100 ++ put16 1 ++ put16 0 ++ put16 0 ++ put16 0 ++ queryName name ++
    put16 1 ++ put16 1

section Query
variable {mem : Nat → UInt8} {p : Nat} {l name : List UInt8} {ls : List (List UInt8)}

/-- A name on the wire. -/
def wireName (ls : List (List UInt8)) : List UInt8 :=
  (ls.flatMap fun l => .ofNat l.length :: l) ++ [0]

theorem wireName_cons (l : List UInt8) (ls : List (List UInt8)) :
    wireName (l :: ls) = .ofNat l.length :: l ++ wireName ls := by
  rw [wireName, List.flatMap_cons, List.append_assoc]
  rfl

theorem wireName_length (ls : List (List UInt8)) : (wireName ls).length = nameSize ls + 1 := by
  simp [wireName, nameSize, List.length_flatMap]

/-- What stands in memory as a name is one. -/
theorem nameAt_wireName (h : Holds mem p (wireName ls))
    (hlabel : ∀ l ∈ ls, l ≠ [] ∧ l.length < 64) : NameAt mem p ls (nameSize ls + 1) := by
  induction ls generalizing p with
  | nil => exact .root h.1
  | cons l ls ih =>
    rw [wireName_cons, holds_append] at h
    obtain ⟨⟨hlen, hl⟩, hrest⟩ := h
    obtain ⟨hne, hshort⟩ := hlabel l List.mem_cons_self
    have hnext : p + (UInt8.ofNat l.length :: l).length = p + 1 + l.length := by
      rw [List.length_cons]
      omega
    rw [hnext] at hrest
    have hname := ih hrest fun x hx => hlabel x (List.mem_cons_of_mem _ hx)
    have hsize : nameSize (l :: ls) + 1 = 1 + l.length + (nameSize ls + 1) := by
      show l.length + 1 + nameSize ls + 1 = _
      omega
    rw [hsize]
    exact .label hne hshort hlen hl hname

/-- The parts of a name are neither empty nor contain a dot. -/
def IsDomain (ls : List (List UInt8)) : Prop := ∀ l ∈ ls, l ≠ [] ∧ dot ∉ l

/-- The last part of a name. -/
theorem queryName_last (hne : l ≠ []) (hdot : dot ∉ l) :
    queryName l = .ofNat l.length :: l ++ [0] := by
  have hall : ∀ x ∈ l, decide (x ≠ dot) = true :=
    fun x hx => decide_eq_true fun h => hdot (h ▸ hx)
  have htake : l.takeWhile (fun x => decide (x ≠ dot)) = l := List.takeWhile_eq_self_iff.mpr hall
  have hdrop : l.dropWhile (fun x => decide (x ≠ dot)) = [] := List.dropWhile_eq_nil_iff.mpr hall
  rw [queryName]
  simp only [htake, hdrop, if_neg hne, dif_pos]

/-- A part of a name that a dot ends. -/
theorem queryName_dot (hne : l ≠ []) (hdot : dot ∉ l) (rest : List UInt8) :
    queryName (l ++ dot :: rest) = .ofNat l.length :: l ++ queryName rest := by
  have hall : ∀ x ∈ l, decide (x ≠ dot) = true :=
    fun x hx => decide_eq_true fun h => hdot (h ▸ hx)
  have htake : (l ++ dot :: rest).takeWhile (fun x => decide (x ≠ dot)) = l := by
    rw [List.takeWhile_append_of_pos hall]
    simp
  have hdrop : (l ++ dot :: rest).dropWhile (fun x => decide (x ≠ dot)) = dot :: rest := by
    rw [List.dropWhile_append_of_pos hall]
    simp
  rw [queryName]
  simp only [htake, hdrop, if_neg hne, List.tail_cons, List.cons_ne_nil, dif_neg, not_false_eq_true]

/-- **The query names the domain.** -/
theorem queryName_eq (h : IsDomain (l :: ls)) :
    queryName (l ++ Levels.below dot ls) = wireName (l :: ls) := by
  obtain ⟨hne, hdot⟩ := h l List.mem_cons_self
  induction ls generalizing l with
  | nil =>
    rw [Levels.below_nil, List.append_nil, queryName_last hne hdot, wireName_cons]
    rfl
  | cons l' ls ih =>
    have htail : IsDomain (l' :: ls) := fun x hx => h x (List.mem_cons_of_mem _ hx)
    obtain ⟨hne', hdot'⟩ := htail l' List.mem_cons_self
    rw [Levels.below_cons, queryName_dot hne hdot, ih htail hne' hdot', wireName_cons l]

/-- The text of a domain is as long as its name in memory, but for the last dot. -/
theorem nameSize_domain (l : List UInt8) (ls : List (List UInt8)) :
    nameSize (l :: ls) = (l ++ Levels.below dot ls).length + 1 := by
  have hbelow : (Levels.below dot ls).length = nameSize ls := by
    simp [Levels.below, nameSize, List.length_flatMap]
  rw [List.length_append, hbelow]
  show l.length + 1 + nameSize ls = _
  omega

theorem dnsMakequery_length (msgId : Nat) (name : List UInt8) :
    (dnsMakequery msgId name).length = 16 + (queryName name).length := by
  simp only [dnsMakequery, put16, List.length_append, List.length_cons, List.length_nil]
  omega

/-- **The query is read again**, wherever it is repeated: the name of a domain fits into the buffers
of `dns_question` and `dns_answer`, if it is one character shorter than `dns_makequery` allows. -/
theorem fitsAt_query (h : IsDomain (l :: ls)) (hname : name = l ++ Levels.below dot ls)
    (hfits : name.length + 1 < maxCname) (hmem : Holds mem p (queryName name)) :
    FitsAt mem p (p + (queryName name).length) := by
  have hsize : nameSize (l :: ls) < maxCname := by
    rw [nameSize_domain, ← hname]
    exact hfits
  have hlabel : ∀ x ∈ l :: ls, x ≠ [] ∧ x.length < 64 := by
    intro x hx
    refine ⟨(h x hx).1, ?_⟩
    have hle : x.length + 1 ≤ nameSize (l :: ls) := List.le_sum_of_mem (List.mem_map_of_mem hx)
    have hmax : maxCname = 24 := rfl
    omega
  subst hname
  rw [queryName_eq h] at hmem ⊢
  refine ⟨_, _, nameAt_wireName hmem hlabel, hsize, ?_⟩
  rw [wireName_length]

/-- **A reply to a query.** A reply that repeats the question of the client, for a domain of at most
22 characters, and whose answers are as they should be, is read as it is meant: the client takes the
last address in it, is content exactly if the reply reports no error, and stores nothing behind a
buffer. -/
theorem dns_reply {addrs : List (Option Ipv4)} {q : Nat} (ip : Ipv4) (h : IsDomain (l :: ls))
    (hname : name = l ++ Levels.below dot ls) (hfits : name.length + 1 < maxCname)
    (hquestion : qdcount mem = 1 ∧ Holds mem 12 (queryName name))
    (hanswers : ancount mem = addrs.length ∧
      AnswersAt mem addrs (12 + (queryName name).length + 4) q) :
    parseDnsMsg mem ip = ⟨if rcode mem = 0 then 1 else 0, lastAddress ip addrs, false⟩ := by
  obtain ⟨hone, hrepeat⟩ := hquestion
  have hat : QuestionsAt mem (qdcount mem) 12 (12 + (queryName name).length + 4) := by
    rw [hone]
    exact .cons (fitsAt_query h hname hfits hrepeat) (.nil _)
  exact parseDnsMsg_reply hat hanswers.2 hanswers.1

/-- `a.b`, asked for, and a reply to it. -/
def abName : List UInt8 := [97, 46, 98]

def abReply : Nat → UInt8 := fun k =>
  (put16 0x1123 ++ put16 0x8180 ++ put16 1 ++ put16 1 ++ put16 0 ++ put16 0 ++ wireName [[97], [98]] ++
    put16 1 ++ put16 1 ++ [0xc0, 12] ++ put16 1 ++ put16 1 ++ put16 0 ++ put16 60 ++ put16 4 ++
    [10, 0, 0, 7]).getD k 0

theorem dns_reply_ab : parseDnsMsg abReply .zero = ⟨1, ⟨10, 0, 0, 7⟩, false⟩ := by
  have hdomain : IsDomain [[97], [98]] := by
    intro l hl
    simp only [List.mem_cons, List.not_mem_nil, or_false] at hl
    rcases hl with rfl | rfl
    · decide
    · decide
  have hquery : queryName abName = wireName [[97], [98]] := queryName_eq hdomain
  have hrepeat : Holds abReply 12 (queryName abName) := by
    rw [hquery]
    decide
  have hname : NameAt abReply 21 [[97], [98]] 2 := by
    have hat := nameAt_wireName (hquery ▸ hrepeat) (by simp)
    exact .pointer (by decide) (by decide) hat
  have htype : get16 abReply 23 = typeA := by decide
  have hdata : DataAt abReply (get16 abReply 23) 33 37 := by
    rw [DataAt, if_pos htype]
  have hanswer : AnswerAt abReply 21 37 (some ⟨10, 0, 0, 7⟩) :=
    ⟨23, ⟨_, _, hname, by decide, rfl⟩, by decide, hdata, by decide⟩
  have hfrom : 12 + (queryName abName).length + 4 = 21 := by rw [hquery]; rfl
  have hanswers : AnswersAt abReply [some ⟨10, 0, 0, 7⟩] (12 + (queryName abName).length + 4) 37 :=
    hfrom ▸ .cons hanswer (.nil 37)
  have hreply := dns_reply .zero hdomain (rfl : abName = _) (by decide) ⟨by decide, hrepeat⟩
    ⟨by decide, hanswers⟩
  have hrcode : rcode abReply = 0 := by decide
  rw [if_pos hrcode] at hreply
  exact hreply

end Query

end IBoxClient
