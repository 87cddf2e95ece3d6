import SdkBindings.Layout

/-!
A file system as lines of text, one entry a line: a letter for its kind, then its
path, and after another blank what it holds.  The letters are `d` for a
directory, `f` for a file, `x` for an executable one, `l` for a link and `p` for
a pipe.
-/

namespace SdkBindings

namespace LayoutEntry

/-- The entry that a line describes, if it describes one. -/
def ofLine? (line : Text) : Option LayoutEntry :=
  match Text.cut Text.blank line with
  | ([kind], some rest) =>
    let (path, after) := Text.cut Text.blank rest
    let content := after.getD []
    if kind = 100 then some (.directory path)
    else if kind = 102 then some (.file path false (content ++ [Text.newline]))
    else if kind = 120 then some (.file path true (content ++ [Text.newline]))
    else if kind = 108 then some (.link path content)
    else if kind = 112 then some (.pipe path)
    else none
  | _ => none

end LayoutEntry

namespace FileSystem

/-- The file system that lines describe; other lines are passed over. -/
def ofLines (lines : List Text) : FileSystem :=
  empty.layOutAll (.ofPlace []) (lines.filterMap LayoutEntry.ofLine?)

end FileSystem

end SdkBindings
