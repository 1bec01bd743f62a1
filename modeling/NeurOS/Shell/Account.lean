import NeurOS.Shell.Input

/-!
# The files under etc

What an administrator writes into the ramdisk, as records: the host name, the users
and the groups.  The shell takes its identity from the first user and the first group
of the files that these are written to.
-/

namespace NeurOS

open Foundation

abbrev Item := { s : String // ':' ∉ s.toList }

structure Account where
  username : Item
  password : Item
  userId : Fin (2 ^ 32)
  groupId : Fin (2 ^ 32)
  comment : Item
  home : Item
  program : String

structure Group where
  name : Item
  password : Item
  groupId : Fin (2 ^ 32)
  members : String

def delimited (texts : List String) : String :=
  texts.foldr (fun text rest => text ++ ":" ++ rest) ""

namespace Account

def line (self : Account) : String :=
  delimited [self.username.val, self.password.val, toString self.userId.val,
    toString self.groupId.val, self.comment.val, self.home.val] ++ self.program ++ "\n"

end Account

namespace Group

def line (self : Group) : String :=
  delimited [self.name.val, self.password.val, toString self.groupId.val] ++ self.members ++ "\n"

end Group

/-- The files under etc, with at least one user and one group. -/
structure Etc where
  hostname : String
  user : Account
  users : List Account
  group : Group
  groups : List Group
  motd : String

namespace Etc

def passwd (self : Etc) : String :=
  String.join ((self.user :: self.users).map Account.line)

def groupFile (self : Etc) : String :=
  String.join ((self.group :: self.groups).map Group.line)

structure StoredIn (etc : Etc) (initrd : Initrd) : Prop where
  hostname : initrd.getData "initrd/etc/hostname" = .ok (Text.bytesOf (etc.hostname ++ "\n"))
  passwd : initrd.getData "initrd/etc/passwd" = .ok (Text.bytesOf etc.passwd)
  group : initrd.getData "initrd/etc/group" = .ok (Text.bytesOf etc.groupFile)
  motd : initrd.getData "initrd/etc/motd" = .ok (Text.bytesOf etc.motd)

def shell (self : Etc) : Shell where
  buffer := []
  group := self.group.name.val
  groupId := self.user.groupId.val
  prompt := Shell.promptFor self.user.username.val (Text.trimEnd self.hostname)
  userId := self.user.userId.val
  username := self.user.username.val
  workingDirectory := self.user.home.val

end Etc

theorem splitTerminator_delimited {texts : List String}
    (h : forall text, text ∈ texts -> ':' ∉ text.toList) (rest : String) :
    Text.splitTerminator ':' (delimited texts ++ rest) =
      texts ++ Text.splitTerminator ':' rest := by
  induction texts with
  | nil =>
      unfold delimited
      rw [List.foldr_nil, String.empty_append, List.nil_append]
  | cons text texts ih =>
      have htext : ':' ∉ text.toList := h text List.mem_cons_self
      have hrest := ih fun other hother => h other (List.mem_cons_of_mem text hother)
      have hcolon : ":" = String.singleton ':' := rfl
      unfold delimited
      rw [List.foldr_cons, hcolon, String.append_assoc, Text.splitTerminator_cons htext]
      exact congrArg (List.cons text) hrest

theorem colon_not_mem_toString (n : Nat) : ':' ∉ (toString n).toList := by
  intro hmem
  have hdigit := Text.mem_toString hmem
  simp at hdigit

namespace Etc

theorem passwd_fields (self : Etc) : exists rest, Text.splitTerminator ':' self.passwd =
    self.user.username.val :: self.user.password.val :: toString self.user.userId.val ::
      toString self.user.groupId.val :: self.user.comment.val :: self.user.home.val :: rest := by
  let behind := self.user.program ++ ("\n" ++ String.join (self.users.map Account.line))
  refine ⟨Text.splitTerminator ':' behind, ?_⟩
  rw [passwd, List.map_cons, String.join_cons, Account.line, String.append_assoc,
    String.append_assoc, splitTerminator_delimited]
  · rfl
  · simp only [List.forall_mem_cons, List.not_mem_nil, false_implies, implies_true, and_true]
    exact ⟨self.user.username.property, self.user.password.property,
      colon_not_mem_toString _, colon_not_mem_toString _, self.user.comment.property,
      self.user.home.property⟩

theorem group_fields (self : Etc) :
    exists rest, Text.splitTerminator ':' self.groupFile = self.group.name.val :: rest := by
  let behind := self.group.members ++ ("\n" ++ String.join (self.groups.map Group.line))
  refine ⟨self.group.password.val :: toString self.group.groupId.val ::
    Text.splitTerminator ':' behind, ?_⟩
  rw [groupFile, List.map_cons, String.join_cons, Group.line, String.append_assoc,
    String.append_assoc, splitTerminator_delimited]
  · rfl
  · simp only [List.forall_mem_cons, List.not_mem_nil, false_implies, implies_true, and_true]
    exact ⟨self.group.name.property, self.group.password.property, colon_not_mem_toString _⟩

theorem trimEnd_hostname (self : Etc) :
    Text.trimEnd (self.hostname ++ "\n") = Text.trimEnd self.hostname :=
  Text.trimEnd_append self.hostname (by simp [Text.isWhitespace])

theorem parseId_repr (id : Fin (2 ^ 32)) : Shell.parseId id.val.repr = .ok id.val := by
  have hread : Text.fromStrRadix 32 10 id.val.repr = some id.val :=
    Text.fromStrRadix_toString id.isLt
  unfold Shell.parseId
  rw [hread]

theorem new_eq {etc : Etc} {initrd : Initrd} (h : etc.StoredIn initrd) :
    Shell.new initrd = .ok etc.shell := by
  rcases etc.passwd_fields with ⟨more, hpasswd⟩
  rcases etc.group_fields with ⟨others, hgroup⟩
  unfold Shell.new
  simp [Console.readText_of_getData h.hostname, Console.readText_of_getData h.passwd,
    Console.readText_of_getData h.group, hpasswd, hgroup, parseId_repr, trimEnd_hostname,
    shell]

def stored (etc : Etc) : Initrd where
  files :=
    [Console.etcFile "initrd/etc/hostname" (etc.hostname ++ "\n"),
      Console.etcFile "initrd/etc/passwd" etc.passwd,
      Console.etcFile "initrd/etc/group" etc.groupFile,
      Console.etcFile "initrd/etc/motd" etc.motd]

theorem stored_storedIn (etc : Etc) : etc.StoredIn etc.stored :=
  ⟨rfl, rfl, rfl, rfl⟩

theorem display_eq {etc : Etc} {initrd : Initrd} (h : etc.StoredIn initrd) :
    etc.shell.display initrd = .ok [etc.motd ++ "\n", etc.shell.prompt] := by
  unfold Shell.display
  rw [Console.readText_of_getData h.motd, Outcome.ok_bind]

/-- A ramdisk with these files opens the shell of its first user, and a greeting with the
message of the day and the prompt. -/
theorem opens_shell {etc : Etc} {initrd : Initrd} (h : etc.StoredIn initrd) :
    Shell.new initrd = .ok etc.shell ∧
      etc.shell.display initrd = .ok [etc.motd ++ "\n", etc.shell.prompt] :=
  ⟨new_eq h, display_eq h⟩

end Etc

theorem root_noColon : ':' ∉ "root".toList := by
  simp

theorem password_noColon : ':' ∉ "x".toList := by
  simp

theorem comment_noColon : ':' ∉ "Super User".toList := by
  simp

theorem home_noColon : ':' ∉ "/root".toList := by
  simp

def rootUser : Account where
  username := ⟨"root", root_noColon⟩
  password := ⟨"x", password_noColon⟩
  userId := ⟨0, Nat.two_pow_pos 32⟩
  groupId := ⟨0, Nat.two_pow_pos 32⟩
  comment := ⟨"Super User", comment_noColon⟩
  home := ⟨"/root", home_noColon⟩
  program := "/bin/sh"

def rootGroup : Group where
  name := ⟨"root", root_noColon⟩
  password := ⟨"x", password_noColon⟩
  groupId := ⟨0, Nat.two_pow_pos 32⟩
  members := ""

def rootEtc : Etc where
  hostname := "localhost"
  user := rootUser
  users := [rootUser]
  group := rootGroup
  groups := []
  motd := "NeurOS\n"

theorem rootEtc_opens : Shell.new rootEtc.stored = .ok rootEtc.shell ∧
    rootEtc.shell.display rootEtc.stored = .ok [rootEtc.motd ++ "\n", rootEtc.shell.prompt] :=
  Etc.opens_shell (Etc.stored_storedIn rootEtc)

end NeurOS
