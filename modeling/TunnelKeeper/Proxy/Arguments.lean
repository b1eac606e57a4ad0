import TunnelKeeper.Settings.Parts
import TunnelKeeper.Tunnel.Config

/-!
# Arguments — the command line of the proxy for one tunnel

The arguments of the settings are a template.  Six names between braces stand for parts of the
tunnel and of the local address, and each name is replaced everywhere before the next one is
looked for, in the order of `ProxySettings.substitutions`.  So a part that itself holds a later
name is replaced once more.
-/

namespace TunnelKeeper

namespace Template

/-- Replaces every occurrence of a pattern, from left to right and without overlaps; `skip` more
characters belong to the occurrence that was found last. -/
def replaceFrom (pattern value : List Char) : (skip : Nat) → List Char → List Char
  | _, [] => []
  | skip + 1, _ :: rest => replaceFrom pattern value skip rest
  | 0, c :: rest =>
    if pattern.isPrefixOf (c :: rest) then
      value ++ replaceFrom pattern value (pattern.length - 1) rest
    else c :: replaceFrom pattern value 0 rest

/-- Replaces every occurrence of a pattern. -/
def replace (pattern value s : List Char) : List Char := replaceFrom pattern value 0 s

/-- Carries out replacements one after the other. -/
def replaceAll (substitutions : List (List Char × List Char)) (s : List Char) : List Char :=
  substitutions.foldl (fun s (pattern, value) => replace pattern value s) s

/-- A name between braces. -/
def braced (name : String) : List Char := '\x7b' :: name.toList ++ ['\x7d']

example : replace ['a', 'a'] ['b'] ['a', 'a', 'a'] = ['b', 'a'] := by decide

end Template

namespace Settings.ProxySettings

/-- What the names of the template stand for, in the order in which they are replaced. -/
def substitutions (s : ProxySettings) (config : TunnelConfig) :
    Except ConfigError (List (List Char × List Char)) := do
  let host ← config.host
  let port ← config.port
  let password ← config.password
  let method := (config.method?).getD s.defaultMethod
  return [
    (Template.braced "host", host.toList),
    (Template.braced "port", Digits.ofNat port.toNat),
    (Template.braced "password", password.toList),
    (Template.braced "method", method.toList),
    (Template.braced "local_addr", s.localAddr.ip.chars),
    (Template.braced "local_port", Digits.ofNat s.localAddr.port.toNat)]

/-- The arguments for a tunnel. -/
def renderArgs (s : ProxySettings) (config : TunnelConfig) : Except ConfigError (List String) := do
  let substitutions ← s.substitutions config
  return s.args.map fun arg => String.ofList (Template.replaceAll substitutions arg.toList)

end Settings.ProxySettings

end TunnelKeeper
