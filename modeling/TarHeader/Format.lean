import TarHeader.Record

/- The formats of a header, told apart by magic and version. Reading goes by the octets of the
   magic field (`detect`), writing by the two texts of an attribute set (`ofMagic`). The octets
   of xstar are those of POSIX with a second magic at the end, which the texts do not show, so
   writing never chooses it. -/
namespace TarHeader

namespace Magic

def posixText : Text := ['u', 's', 't', 'a', 'r']
def posixVersionText : Text := ['0', '0']
def oldGnuText : Text := ['u', 's', 't', 'a', 'r', ' ']
def oldGnuVersionText : Text := [' ']

end Magic

inductive Format where
  /-- Without any magic. -/
  | legacy
  | posix
  | oldGnu
  | xstar
  deriving DecidableEq

namespace Format

def detect (r : Record) : Format :=
  if r.read Layout.magic = Magic.oldGnu then .oldGnu
  else if r.read Layout.magic = Magic.posix then
    if r.read Layout.Xstar.magic = Magic.xstar then .xstar else .posix
  else .legacy

def ofMagic (magic version : Text) : Format :=
  if magic = Magic.oldGnuText then .oldGnu
  else if magic = Magic.posixText ∧ version = Magic.posixVersionText then .posix
  else .legacy

end Format

end TarHeader
